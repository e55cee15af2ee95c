import HookScript.Proofs.Script.Identifier
import HookScript.Proofs.Text.Parts

/-!
# Names that a script binds

A script engine refuses a script that declares one variable twice in a scope, or
that declares a variable in a function with a parameter of the same name.  Of two
parameters of one name the function sees only the last.  So the names of a scope
have to differ.

The names are read off the lines of a script one after the other.  A line that ends
with an opening brace opens a function and names its parameters, a line with just
a closing brace and a semicolon ends it, and any other line may declare one
variable, in the function that is open or else outside of functions.  `Binds` says
what a block of lines adds to the names that were read before it; blocks that
follow each other add their names one after the other.
-/

namespace HookScript.Script

/-- The names that a script binds, in order. -/
structure Scopes where
  /-- The variables that are declared outside of functions. -/
  outer : List Text
  /-- For every function its parameters and the variables that are declared in it. -/
  functions : List (List Text)

/-- The names that were read so far, and those of the function that is open. -/
structure ScopeReader where
  scopes : Scopes
  inside? : Option (List Text)

/-! ## Lines -/

/-- The variable that a line declares. -/
def declaredName? (line : Text) : Option Text :=
  (Text.dropPrefix? "let " (line.dropWhile fun c => c = ' ')).map
    (List.takeWhile isIdentifierPart)

/-- The names in a list with commas between them. -/
def listedNames (list : Text) : List Text :=
  if list = [] then [] else (list.splitAtEach ',').map Text.trim

/-- The parameters of the function that a line opens.  They stand in the last
parentheses of the line, whatever the line holds in front of them. -/
def parameters? (line : Text) : Option (List Text) :=
  if line.getLast? = some (.ofChar '\x7b') then
    some (listedNames ((line.afterLast '(').takeWhile fun c => c ≠ ')'))
  else none

def closingLine : Text := "\x7d;"

namespace ScopeReader

def readLine (reader : ScopeReader) (line : Text) : ScopeReader :=
  match reader.inside? with
  | some names =>
    if line = closingLine then
      ⟨{ reader.scopes with functions := reader.scopes.functions ++ [names] }, none⟩
    else ⟨reader.scopes, some (names ++ (declaredName? line).toList)⟩
  | none =>
    match parameters? line with
    | some names => ⟨reader.scopes, some names⟩
    | none => ⟨{ reader.scopes with outer := reader.scopes.outer ++ (declaredName? line).toList },
        none⟩

def readLines (reader : ScopeReader) (lines : List Text) : ScopeReader := lines.foldl readLine reader

theorem readLines_append (reader : ScopeReader) (first second : List Text) :
    reader.readLines (first ++ second) = (reader.readLines first).readLines second :=
  List.foldl_append

end ScopeReader

def Scopes.ofText (text : Text) : Scopes :=
  (ScopeReader.readLines ⟨⟨[], []⟩, none⟩ (text.splitAtEach '\n')).scopes

/-! ## Names of lines -/

theorem takeWhile_identifier {name : Text} (identifier : isIdentifier name = true) {c : CodePoint}
    (stop : isIdentifierPart c = false) (rest : Text) :
    (name ++ c :: rest).takeWhile isIdentifierPart = name := by
  have parts : ∀ d ∈ name, isIdentifierPart d = true := isNameCodePoint_of_isIdentifier identifier
  rw [List.takeWhile_append_of_pos parts, List.takeWhile_cons_of_neg, List.append_nil]
  rw [stop]
  exact Bool.false_ne_true

theorem declaredName?_let {name : Text} (identifier : isIdentifier name = true) (value : Text) :
    declaredName? ("let " ++ name ++ " = " ++ value) = some name := by
  have shape : Text.ofString "let " ++ name ++ Text.ofString " = " ++ value =
      Text.ofString "let " ++ (name ++ .ofChar ' ' :: (Text.ofString "= " ++ value)) := by
    simp only [List.append_assoc]
    rfl
  have noBlank : (Text.ofString "let " ++ name ++ Text.ofString " = " ++ value).dropWhile
      (fun c : CodePoint => c = ' ') = Text.ofString "let " ++ name ++ " = " ++ value := rfl
  rw [declaredName?, noBlank, Text.dropPrefix?_eq_some.mpr shape, Option.map_some,
    takeWhile_identifier identifier (by decide)]

theorem trim_identifier {name : Text} (identifier : isIdentifier name = true) :
    name.trim = name :=
  Text.trim_of_forall fun c member =>
    isBlank_of_isNameCodePoint (isNameCodePoint_of_isIdentifier identifier c member)

/-- The comma of a list is followed by a blank, which is no part of a name. -/
theorem listedNames_intercalate {names : List Text}
    (identifiers : ∀ name ∈ names, isIdentifier name = true) :
    listedNames (List.intercalate ", " names) = names := by
  cases names with
  | nil => rfl
  | cons name names =>
    rcases List.forall_mem_cons.mp identifiers with ⟨here, later⟩
    have noComma : ∀ {name : Text}, isIdentifier name = true → .ofChar ',' ∉ name :=
      fun identifier => not_mem_of_isIdentifier identifier (by decide)
    have parts : Text.splitAtEach ',' (List.intercalate (.ofChar ',' :: Text.ofString " ")
        (name :: names)) = name :: names.map (Text.ofString " " ++ ·) := by
      rw [Text.intercalate_gap]
      refine Text.splitAtEach_intercalate (List.forall_mem_cons.mpr ⟨noComma here, ?_⟩)
        (List.cons_ne_nil _ _)
      intro shifted listed member
      rcases List.mem_map.mp listed with ⟨other, inNames, rfl⟩
      rcases List.mem_append.mp member with inBlank | inName
      · exact absurd inBlank (by decide)
      · exact noComma (later other inNames) inName
    have trimmed : (names.map (Text.ofString " " ++ ·)).map Text.trim = names := by
      have each : ∀ other ∈ names, (Text.trim ∘ (Text.ofString " " ++ ·)) other = other :=
        fun other listed => trim_identifier (later other listed)
      rw [List.map_map]
      exact (List.map_congr_left each).trans (List.map_id' names)
    have nonempty : List.intercalate (.ofChar ',' :: Text.ofString " ") (name :: names) ≠ [] := by
      intro empty
      rw [empty] at parts
      exact ne_nil_of_isIdentifier here (List.cons.inj parts).1.symm
    change listedNames (List.intercalate (.ofChar ',' :: Text.ofString " ") (name :: names)) = _
    rw [listedNames, if_neg nonempty, parts, List.map_cons, trim_identifier here, trimmed]

theorem parameters?_function {lead : Text} {names : List Text}
    (opens : lead.getLast? = some (.ofChar '('))
    (identifiers : ∀ name ∈ names, isIdentifier name = true) :
    parameters? (lead ++ List.intercalate ", " names ++ ") \x7b") = some names := by
  rcases List.getLast?_eq_some_iff.mp opens with ⟨before, rfl⟩
  have marks : ∀ mark ∈ Text.ofString "()", mark ∉ Text.ofString ", " ∧
      isNameCodePoint mark = false := by decide
  have absent : ∀ mark ∈ Text.ofString "()", mark ∉ List.intercalate (Text.ofString ", ") names := by
    intro mark isMark member
    rcases Text.mem_intercalate member with inGap | ⟨name, listed, inName⟩
    · exact (marks mark isMark).1 inGap
    · exact not_mem_of_isIdentifier (identifiers name listed) (marks mark isMark).2 inName
  have noOpening : .ofChar '(' ∉ List.intercalate (Text.ofString ", ") names ++
      .ofChar ')' :: Text.ofString " \x7b" := by
    intro member
    rcases List.mem_append.mp member with inList | behind
    · exact absent _ (by decide) inList
    · exact absurd behind (by decide)
  have shape : before ++ [CodePoint.ofChar '('] ++ List.intercalate (Text.ofString ", ") names ++
      Text.ofString ") \x7b" = before ++ .ofChar '(' ::
        (List.intercalate (Text.ofString ", ") names ++ .ofChar ')' :: Text.ofString " \x7b") := by
    simp only [List.append_assoc]
    rfl
  have brace : (before ++ [CodePoint.ofChar '('] ++ List.intercalate (Text.ofString ", ") names ++
      Text.ofString ") \x7b").getLast? = some (.ofChar '\x7b') := by
    rw [List.getLast?_append]
    rfl
  rw [parameters?, if_pos brace, shape, Text.afterLast_append_mark noOpening,
    Text.takeWhile_append_mark (absent _ (by decide)), listedNames_intercalate identifiers]

/-- A line that ends with a statement opens no function. -/
theorem parameters?_append (line : Text) {ending : Text}
    (ends : ending.getLast? = some (.ofChar ';')) : parameters? (line ++ ending) = none := by
  have semicolon : (line ++ ending).getLast? = some (.ofChar ';') := by
    rw [List.getLast?_append, ends]
    rfl
  rw [parameters?, semicolon, if_neg (by decide)]

/-! ## Names of blocks -/

/-- Lines that bind names outside of functions and define whole functions. -/
def Binds (lines : List Text) (outer : List Text) (functions : List (List Text)) : Prop :=
  ∀ scopes : Scopes, ScopeReader.readLines ⟨scopes, none⟩ lines =
    ⟨⟨scopes.outer ++ outer, scopes.functions ++ functions⟩, none⟩

variable {lines : List Text} {outer : List Text} {functions : List (List Text)}

theorem binds_nil : Binds [] [] [] := by
  intro scopes
  rw [List.append_nil, List.append_nil]
  rfl

theorem Binds.append {lines' : List Text} {outer' : List Text} {functions' : List (List Text)}
    (first : Binds lines outer functions) (second : Binds lines' outer' functions') :
    Binds (lines ++ lines') (outer ++ outer') (functions ++ functions') := by
  intro scopes
  rw [ScopeReader.readLines_append, first, second, List.append_assoc, List.append_assoc]

/-- Blocks in a row bind the names of each block in turn. -/
theorem Binds.flatMap {α : Type} {block : α → List Text} {outerOf : α → List Text}
    {functionsOf : α → List (List Text)} {items : List α}
    (each : ∀ item ∈ items, Binds (block item) (outerOf item) (functionsOf item)) :
    Binds (items.flatMap block) (items.flatMap outerOf) (items.flatMap functionsOf) := by
  induction items with
  | nil => exact binds_nil
  | cons item items ih =>
    rcases List.forall_mem_cons.mp each with ⟨here, later⟩
    rw [List.flatMap_cons, List.flatMap_cons, List.flatMap_cons]
    exact here.append (ih later)

theorem binds_line {line : Text} {name? : Option Text} (opensNone : parameters? line = none)
    (declares : declaredName? line = name?) : Binds [line] name?.toList [] := by
  intro scopes
  change ScopeReader.readLine ⟨scopes, none⟩ line = _
  simp only [ScopeReader.readLine, opensNone, declares, List.append_nil]

theorem readLines_inside {body : List Text} (closesNone : ∀ line ∈ body, line ≠ closingLine)
    (scopes : Scopes) (names : List Text) :
    ScopeReader.readLines ⟨scopes, some names⟩ body =
      ⟨scopes, some (names ++ body.filterMap declaredName?)⟩ := by
  induction body generalizing names with
  | nil =>
    rw [List.filterMap_nil, List.append_nil]
    rfl
  | cons line body ih =>
    rcases List.forall_mem_cons.mp closesNone with ⟨here, later⟩
    have step : ScopeReader.readLine ⟨scopes, some names⟩ line =
        ⟨scopes, some (names ++ (declaredName? line).toList)⟩ := if_neg here
    change ScopeReader.readLines (ScopeReader.readLine ⟨scopes, some names⟩ line) body = _
    rw [step, ih later, List.append_assoc]
    cases declared : declaredName? line with
    | none => rw [List.filterMap_cons_none declared]; rfl
    | some name => rw [List.filterMap_cons_some declared]; rfl

/-- A function binds its parameters and what is declared in it, and nothing outside. -/
theorem binds_function {opening : Text} {parameters : List Text} {body : List Text}
    (opens : parameters? opening = some parameters)
    (closesNone : ∀ line ∈ body, line ≠ closingLine) :
    Binds (opening :: (body ++ [closingLine])) []
      [parameters ++ body.filterMap declaredName?] := by
  intro scopes
  have entered : ScopeReader.readLine ⟨scopes, none⟩ opening = ⟨scopes, some parameters⟩ := by
    simp only [ScopeReader.readLine, opens]
  change ScopeReader.readLines (ScopeReader.readLine ⟨scopes, none⟩ opening) (body ++ _) = _
  rw [entered, ScopeReader.readLines_append, readLines_inside closesNone, List.append_nil]
  rfl

/-- What the lines of a text bind is what the text binds. -/
theorem Binds.ofText {text : Text} (binds : Binds (text.splitAtEach '\n') outer functions) :
    Scopes.ofText text = ⟨outer, functions⟩ :=
  congrArg ScopeReader.scopes (binds ⟨[], []⟩)

end HookScript.Script
