import HookScript.Program.Dump
import HookScript.Proofs.JavaType.Display
import HookScript.Proofs.Json.Reading
import HookScript.Proofs.Json.RoundTrip
import HookScript.Proofs.Program.Entry

/-!
# The texts of dumps

The texts of a dump are raw names, aliases, identities and the display forms of
types.  Types and the names of variables have no surrogates.  Raw names may have
some, but they come from a document, so that they are joined, and so is all that is
made of them.  Hence a written dump is read back as it was.
-/

namespace HookScript

open Json

/-! ## Texts without surrogates -/

theorem Script.scalar_of_isIdentifier {name : Text} (identifier : isIdentifier name = true) :
    name.Scalar := by
  intro c member
  exact isSurrogate_of_isNameCodePoint (isNameCodePoint_of_isIdentifier identifier c member)

namespace JavaType

theorem scalar_display {type : JavaType} (wellFormed : type.WellFormed) : type.display.Scalar := by
  intro c member
  rcases List.mem_append.mp member with inBase | inBrackets
  · rcases dotted_display wellFormed.base c inBase with dot | inName
    · rw [dot]
      rfl
    · exact isSurrogate_of_isNameCodePoint inName
  · exact Text.scalar_ofString "[]" c (mem_brackets inBrackets)

theorem scalar_signature {type : JavaType} (wellFormed : type.WellFormed) :
    type.signature.Scalar := by
  intro c member
  rcases mem_signature wellFormed member with mark | mark | mark | inName
  · rw [mark]
    rfl
  · rw [mark]
    rfl
  · rw [mark]
    rfl
  · exact isSurrogate_of_isNameCodePoint inName

end JavaType

/-! ## Names from a document -/

/-- A method whose names are joined. -/
structure JavaMethod.JoinedNames (method : JavaMethod) : Prop where
  rawName : method.rawName.Joined
  aliasName : method.aliasName.Joined

/-- A class whose raw names, and those of its members, are joined. -/
structure JavaClass.JoinedNames (cls : JavaClass) : Prop where
  rawName : cls.rawName.Joined
  fields : ∀ field ∈ cls.fields, field.rawName.Joined
  methods : ∀ method ∈ cls.methods, method.JoinedNames

namespace Json

variable {members : List (Text × Json)} {name : Text}

theorem joined_of_lookup (joined : JoinedMembers members) {entry : Json}
    (found : lookup name members = some entry) : entry.Joined := by
  induction members with
  | nil => cases found
  | cons member rest ih =>
    obtain ⟨key, value⟩ := member
    rcases List.forall_mem_cons.mp joined.2 with ⟨here, later⟩
    rw [lookup] at found
    cases behind : lookup name rest with
    | some other =>
      rw [behind] at found
      cases found
      exact ih ⟨(List.forall_mem_cons.mp joined.1).2, later⟩ behind
    | none =>
      rw [behind] at found
      simp only at found
      split at found
      · cases found
        exact here
      · cases found

theorem joined_of_str {text : Text} (joined : JoinedMembers members)
    (found : lookup name members = some (.str text)) : text.Joined := by
  cases joined_of_lookup joined found with
  | str joined => exact joined

theorem joined_of_givesText {default text : Text} (joined : JoinedMembers members)
    (otherwise : default.Joined) (gives : GivesText members name default text) : text.Joined := by
  cases gives with
  | given found => exact joined_of_str joined found
  | missing _ => exact otherwise

theorem joined_of_givesList {items : List Json} (joined : JoinedMembers members)
    (gives : GivesList members name items) : ∀ item ∈ items, Joined item := by
  cases gives with
  | given found =>
    cases joined_of_lookup joined found with
    | arr each => exact each
  | missing _ => exact nofun

theorem joined_of_describesField {entry : Json} {field : JavaField} (joined : entry.Joined)
    (describes : DescribesField entry field) : field.rawName.Joined := by
  cases describes with
  | entry rawName =>
    cases joined with
    | obj names each => exact joined_of_str ⟨names, each⟩ rawName

theorem joined_of_describesMethod {entry : Json} {method : JavaMethod} (joined : entry.Joined)
    (describes : DescribesMethod entry method) : method.JoinedNames := by
  cases describes with
  | entry rawName aliasName =>
    cases joined with
    | obj names each =>
      have rawJoined := joined_of_str ⟨names, each⟩ rawName
      exact ⟨rawJoined, joined_of_givesText ⟨names, each⟩ rawJoined aliasName⟩

theorem joined_of_describesClass {entry : Json} {cls : JavaClass} (joined : entry.Joined)
    (describes : DescribesClass entry cls) : cls.JoinedNames := by
  cases describes with
  | entry rawName _ fieldList eachField methodList eachMethod =>
    cases joined with
    | obj names each =>
      have joinedFields := joined_of_givesList ⟨names, each⟩ fieldList
      have joinedMethods := joined_of_givesList ⟨names, each⟩ methodList
      refine ⟨joined_of_str ⟨names, each⟩ rawName, ?_, ?_⟩
      · exact forall_of_described eachField fun entry listed _ =>
          joined_of_describesField (joinedFields entry listed)
      · exact forall_of_described eachMethod fun entry listed _ =>
          joined_of_describesMethod (joinedMethods entry listed)

theorem joined_of_describesClasses {document : Json} {classes : List JavaClass}
    (joined : document.Joined) (describes : DescribesClasses document classes) :
    ∀ cls ∈ classes, cls.JoinedNames := by
  cases describes with
  | document classList eachClass =>
    cases joined with
    | obj names each =>
      have joinedClasses := joined_of_givesList ⟨names, each⟩ classList
      exact forall_of_described eachClass fun entry listed _ =>
        joined_of_describesClass (joinedClasses entry listed)

end Json

/-! ## The texts of a dump -/

theorem Json.plain_cons (name : String) {content : Json} {more : List (Text × Json)}
    (plain : content.Plain) (later : Plain (.obj more)) :
    Plain (.obj ((Text.ofString name, content) :: more)) := by
  cases later with
  | obj names each =>
    have nameJoined := (Text.scalar_ofString name).joined
    exact .obj (List.forall_mem_cons.mpr ⟨nameJoined, names⟩)
      (List.forall_mem_cons.mpr ⟨plain, each⟩)

theorem Json.plain_nil : Plain (.obj []) := .obj nofun nofun

theorem Json.plain_map {α : Type} {toJson : α → Json} {values : List α}
    (each : ∀ value ∈ values, (toJson value).Plain) : Plain (.arr (values.map toJson)) := by
  apply Plain.arr
  intro entry listed
  rcases List.mem_map.mp listed with ⟨value, member, rfl⟩
  exact each value member

theorem Json.plain_texts {texts : List Text} (joined : ∀ text ∈ texts, text.Joined) :
    Plain (.texts texts) :=
  plain_map fun text member => .str (joined text member)

theorem JavaField.plain_toJson {field : JavaField} (wellFormed : field.WellFormed)
    (joined : field.rawName.Joined) : field.toJson.Plain := by
  have aliasJoined := (Script.scalar_of_isIdentifier wellFormed.aliasName).joined
  have types := wellFormed.type?
  rw [toJson]
  apply plain_cons _ (.str joined)
  apply plain_cons _ (.str aliasJoined)
  cases known : field.type? with
  | none => exact plain_nil
  | some type =>
    rw [known] at types
    exact plain_cons _ (.str (JavaType.scalar_display (types type rfl)).joined) plain_nil

namespace JavaMethod

theorem joined_identity {method : JavaMethod} (typed : method.Typed)
    (joined : method.rawName.Joined) : method.identity.Joined := by
  have arguments : Text.Scalar (method.argumentTypes.flatMap JavaType.signature) := by
    intro c member
    rcases List.mem_flatMap.mp member with ⟨type, listed, inside⟩
    exact JavaType.scalar_signature (typed.arguments type listed) c inside
  have opening := joined.append_scalar (Text.scalar_ofString "(")
  have closing := (opening.append_scalar arguments).append_scalar (Text.scalar_ofString ")")
  exact closing.append_scalar (JavaType.scalar_signature typed.result)

theorem plain_toJson {method : JavaMethod} (wellFormed : method.WellFormed)
    (joined : method.JoinedNames) : method.toJson.Plain := by
  have arguments : ∀ text ∈ method.argumentTypes.map JavaType.display, Text.Joined text := by
    intro text listed
    rcases List.mem_map.mp listed with ⟨type, member, rfl⟩
    exact (JavaType.scalar_display (wellFormed.typed.arguments type member)).joined
  have names : ∀ name ∈ method.argumentNames, Text.Joined name := by
    intro name listed
    exact (Script.scalar_of_isIdentifier (wellFormed.argumentNames name listed)).joined
  rw [toJson]
  apply plain_cons _ (.str joined.rawName)
  apply plain_cons _ (.str joined.aliasName)
  apply plain_cons _ (.str (joined_identity wellFormed.typed joined.rawName))
  apply plain_cons _ (plain_texts arguments)
  apply plain_cons _ (plain_texts names)
  apply plain_cons _ (.str (JavaType.scalar_display wellFormed.typed.result).joined)
  exact plain_cons _ (.bool _) plain_nil

end JavaMethod

theorem JavaClass.plain_toJson {cls : JavaClass} (wellFormed : cls.WellFormed)
    (joined : cls.JoinedNames) : cls.toJson.Plain := by
  have aliasJoined := (Script.scalar_of_isIdentifier wellFormed.aliasName).joined
  rw [toJson]
  apply plain_cons _ (.str joined.rawName)
  apply plain_cons _ (.str aliasJoined)
  apply plain_cons
  · apply plain_map
    intro field listed
    exact JavaField.plain_toJson (wellFormed.fields field listed) (joined.fields field listed)
  apply plain_cons
  · apply plain_map
    intro method listed
    exact JavaMethod.plain_toJson (wellFormed.methods method listed) (joined.methods method listed)
  exact plain_nil

theorem Model.plain_toJson {model : Model} (wellFormed : model.WellFormed)
    (joined : ∀ cls ∈ model.classes, cls.JoinedNames) : model.toJson.Plain := by
  rw [toJson, Json.ofClasses]
  refine plain_cons _ (plain_map ?_) plain_nil
  intro cls listed
  exact JavaClass.plain_toJson (wellFormed.classes cls listed) (joined cls listed)

end HookScript
