import HookScript.Json.Writer
import HookScript.Proofs.Text.Surrogates

/-!
# Written documents can be encoded

A document may hold texts with lone surrogates, which no bytes encode.  Written down,
they are escapes, and so is everything else that is not printable ASCII.  All that is
put around the texts are marks, digits and spaces.  So a written document can always be
encoded.
-/

namespace HookScript

namespace Text

theorem Scalar.append {first second : Text} (scalarFirst : first.Scalar)
    (scalarSecond : second.Scalar) : Scalar (first ++ second) :=
  List.forall_mem_append.mpr ⟨scalarFirst, scalarSecond⟩

theorem scalar_map_ofChar (characters : List Char) : Scalar (characters.map .ofChar) := by
  intro c member
  rcases List.mem_map.mp member with ⟨character, _, rfl⟩
  exact CodePoint.isSurrogate_ofChar character

theorem scalar_ofNat (n : Nat) : (ofNat n).Scalar := scalar_map_ofChar _

theorem scalar_ofInt (n : Int) : (ofInt n).Scalar := by
  cases n with
  | ofNat n => exact scalar_ofNat n
  | negSucc n => exact (scalar_ofString "-").append (scalar_ofNat _)

end Text

namespace Hex

theorem isSurrogate_digit (letters : Case) (value : Nat) :
    (digit letters value).isSurrogate = false := by
  unfold digit
  split
  · exact CodePoint.isSurrogate_ofChar _
  · cases letters with
    | upper => exact CodePoint.isSurrogate_ofChar _
    | lower => exact CodePoint.isSurrogate_ofChar _

theorem scalar_unit (letters : Case) (u : Nat) : (unit letters u).Scalar := by
  intro c member
  simp only [unit, List.mem_cons, List.not_mem_nil, or_false] at member
  rcases member with rfl | rfl | rfl | rfl
  · exact isSurrogate_digit letters _
  · exact isSurrogate_digit letters _
  · exact isSurrogate_digit letters _
  · exact isSurrogate_digit letters _

end Hex

namespace Decimal

theorem scalar_signText (negative : Bool) : (signText negative).Scalar := by
  cases negative with
  | false => exact nofun
  | true => exact Text.scalar_ofString "-"

theorem scalar_render (number : Decimal) : number.render.Scalar := by
  cases number with
  | finite negative coefficient exponent =>
    exact (((scalar_signText negative).append (Text.scalar_ofNat coefficient)).append
      (Text.scalar_ofString "e")).append (Text.scalar_ofInt exponent)
  | infinite negative => exact (scalar_signText negative).append (Text.scalar_ofString "Infinity")
  | notANumber => exact Text.scalar_ofString "NaN"

end Decimal

namespace Json

open Text (Scalar scalar_ofString)

theorem scalar_quoteCodePoint (c : CodePoint) : (quoteCodePoint c).Scalar := by
  unfold quoteCodePoint
  split
  next letter _ => exact Text.scalar_map_ofChar ['\\', letter]
  next =>
    split
    next printable =>
      have scalar : c.isSurrogate = false := by
        rw [CodePoint.isSurrogate_eq_false_iff]
        omega
      exact List.forall_mem_singleton.mpr scalar
    next =>
      intro escaped member
      rcases List.mem_flatMap.mp member with ⟨u, _, inEscape⟩
      exact (scalar_ofString "\\u").append (Hex.scalar_unit .lower u) escaped inEscape

theorem scalar_quote (text : Text) : (quote text).Scalar := by
  have inside : Scalar (text.flatMap quoteCodePoint) := by
    intro c member
    rcases List.mem_flatMap.mp member with ⟨original, _, inQuoted⟩
    exact scalar_quoteCodePoint original c inQuoted
  exact ((scalar_ofString "\"").append inside).append (scalar_ofString "\"")

theorem scalar_newline (depth : Nat) : (newline depth).Scalar := by
  have spaces : Scalar (List.replicate (2 * depth) (.ofChar ' ')) := by
    intro c member
    rw [List.eq_of_mem_replicate member]
    exact CodePoint.isSurrogate_ofChar ' '
  exact (Text.scalar_map_ofChar ['\n']).append spaces

mutual

theorem scalar_renderAt (depth : Nat) : (document : Json) → (renderAt depth document).Scalar
  | .null => scalar_ofString "null"
  | .bool true => scalar_ofString "true"
  | .bool false => scalar_ofString "false"
  | .int value => Text.scalar_ofInt value
  | .real value => value.scalar_render
  | .str text => scalar_quote text
  | .arr [] => scalar_ofString "[]"
  | .arr (item :: rest) => by
    have start := (scalar_ofString "[").append (scalar_newline (depth + 1))
    have items := (start.append (scalar_renderAt (depth + 1) item)).append
      (scalar_renderItems (depth + 1) rest)
    exact (items.append (scalar_newline depth)).append (scalar_ofString "]")
  | .obj [] => scalar_ofString "\x7b\x7d"
  | .obj ((name, value) :: rest) => by
    have start := (scalar_ofString "\x7b").append (scalar_newline (depth + 1))
    have named := (start.append (scalar_quote name)).append (scalar_ofString ": ")
    have members := (named.append (scalar_renderAt (depth + 1) value)).append
      (scalar_renderMembers (depth + 1) rest)
    exact (members.append (scalar_newline depth)).append (scalar_ofString "\x7d")

theorem scalar_renderItems (depth : Nat) : (items : List Json) → (renderItems depth items).Scalar
  | [] => nofun
  | item :: rest => by
    have start := (scalar_ofString ",").append (scalar_newline depth)
    exact (start.append (scalar_renderAt depth item)).append (scalar_renderItems depth rest)

theorem scalar_renderMembers (depth : Nat) :
    (members : List (Text × Json)) → (renderMembers depth members).Scalar
  | [] => nofun
  | (name, value) :: rest => by
    have start := (scalar_ofString ",").append (scalar_newline depth)
    have named := (start.append (scalar_quote name)).append (scalar_ofString ": ")
    exact (named.append (scalar_renderAt depth value)).append (scalar_renderMembers depth rest)

end

theorem scalar_render (document : Json) : document.render.Scalar := scalar_renderAt 0 document

end Json

end HookScript
