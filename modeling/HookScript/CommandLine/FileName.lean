import HookScript.Text.Basic

/-!
# File names

A file name is a sequence of bytes.  Arguments and answers give it as a text:
its characters are those that its bytes encode in UTF-8, and a byte that belongs
to no character is given as a lone surrogate, `U+DC00` plus the byte.  So every
sequence of bytes has a text, and the text leads back to it (`ofText?_toText`).
Two texts may lead to one name, and a text with any other lone surrogate leads
to none.
-/

namespace HookScript.CommandLine

structure FileName where
  bytes : List UInt8
deriving DecidableEq

namespace FileName

/-- The bytes that a code point of a text stands for. -/
def bytesOf? (c : CodePoint) : Option (List UInt8) :=
  match c.toChar? with
  | some char => some (String.utf8EncodeChar char)
  | none =>
    if 0xDC80 ≤ c.val ∧ c.val < 0xDD00 then some [UInt8.ofNat (c.val - 0xDC00)] else none

def bytesOfText? : Text → Option (List UInt8)
  | [] => some []
  | c :: rest =>
    match bytesOf? c, bytesOfText? rest with
    | some bytes, some more => some (bytes ++ more)
    | _, _ => none

def ofText? (text : Text) : Option FileName := (bytesOfText? text).map FileName.mk

/-- The text of a sequence of bytes. -/
def textOfBytes : List UInt8 → Text
  | [] => []
  | byte :: rest =>
    match (byte :: rest).toByteArray.utf8DecodeChar? 0 with
    | some char => .ofChar char :: textOfBytes (rest.drop (char.utf8Size - 1))
    | none => .ofNat (0xDC00 + byte.toNat) :: textOfBytes rest
termination_by bytes => bytes.length
decreasing_by
  · simp only [List.length_drop, List.length_cons]
    omega
  · simp only [List.length_cons]
    omega

def toText (name : FileName) : Text := textOfBytes name.bytes

def size (name : FileName) : Nat := name.bytes.length

/-- The place of the first code point of a text that stands for no bytes, and the surrogates
from there on. -/
def misfit? : Text → Option (Nat × Text)
  | [] => none
  | c :: rest =>
    match bytesOf? c with
    | none => some (0, (c :: rest).takeWhile CodePoint.isSurrogate)
    | some _ => (misfit? rest).map fun (place, misfits) => (place + 1, misfits)

/-! ## Every name has a text of its own -/

theorem bytesOf?_ofChar (c : Char) :
    bytesOf? (.ofChar c) = some (String.utf8EncodeChar c) := by
  simp only [bytesOf?, CodePoint.toChar?_ofChar]

/-- A byte below 128 is a character whatever follows it. -/
theorem isSome_decoded_of_lt {byte : UInt8} (small : byte.toNat < 0x80) (rest : List UInt8) :
    ((byte :: rest).toByteArray.utf8DecodeChar? 0).isSome := by
  have size : (Char.ofUInt8 byte).utf8Size = 1 := by
    rw [Char.utf8Size_eq_one_iff, UInt32.le_iff_toNat_le]
    exact Nat.le_of_lt_succ (UInt8.toNat_toUInt32 byte ▸ small)
  have encoded : String.utf8EncodeChar (Char.ofUInt8 byte) = [byte] := by
    rw [String.utf8EncodeChar_eq_singleton size]
    exact congrArg (· :: []) (UInt8.toUInt8_toUInt32 byte)
  have decoded := ByteArray.utf8DecodeChar?_utf8EncodeChar_append
    (b := rest.toByteArray) (c := Char.ofUInt8 byte)
  rw [encoded, ← List.toByteArray_append] at decoded
  exact Option.isSome_of_eq_some decoded

/-- A character that bytes begin with takes as many of them as it is long. -/
theorem eq_append_of_decoded {bytes : List UInt8} {c : Char}
    (decoded : bytes.toByteArray.utf8DecodeChar? 0 = some c) :
    bytes = String.utf8EncodeChar c ++ bytes.drop c.utf8Size := by
  obtain ⟨more, split⟩ := ByteArray.exists_of_utf8DecodeChar?_eq_some decoded
  have listed : bytes = String.utf8EncodeChar c ++ more.data.toList := by
    have lists := congrArg (fun array => array.data.toList) split
    simpa only [ByteArray.data_append, Array.toList_append, List.data_toByteArray] using lists
  have rest : bytes.drop c.utf8Size = more.data.toList := by
    rw [listed, List.drop_left' (String.length_utf8EncodeChar c)]
  rw [rest]
  exact listed

theorem bytesOfText?_textOfBytes (bytes : List UInt8) :
    bytesOfText? (textOfBytes bytes) = some bytes := by
  fun_induction textOfBytes bytes with
  | case1 => rfl
  | case2 byte rest char decoded ih =>
    have split := eq_append_of_decoded decoded
    have tail : rest.drop (char.utf8Size - 1) = (byte :: rest).drop char.utf8Size := by
      have positive := Char.utf8Size_pos char
      obtain ⟨n, size⟩ : ∃ n, char.utf8Size = n + 1 := ⟨char.utf8Size - 1, by omega⟩
      rw [size, List.drop_succ_cons, Nat.add_sub_cancel]
    rw [bytesOfText?, ih, bytesOf?_ofChar, tail]
    exact congrArg some split.symm
  | case3 byte rest undecoded ih =>
    have large : 0x80 ≤ byte.toNat := by
      refine Nat.le_of_not_lt fun small => ?_
      have found := isSome_decoded_of_lt small rest
      rw [undecoded] at found
      exact absurd found Bool.false_ne_true
    have bound : byte.toNat < 256 := byte.toNat_lt
    have number : (CodePoint.ofNat (0xDC00 + byte.toNat)).val = 0xDC00 + byte.toNat :=
      CodePoint.val_ofNat (by omega)
    have alone : bytesOf? (.ofNat (0xDC00 + byte.toNat)) = some [byte] := by
      have surrogate : (CodePoint.ofNat (0xDC00 + byte.toNat)).isSurrogate = true := by
        simp only [CodePoint.isSurrogate, number, Bool.and_eq_true, decide_eq_true_eq]
        omega
      have inRange : 0xDC80 ≤ 0xDC00 + byte.toNat ∧ 0xDC00 + byte.toNat < 0xDD00 := by omega
      simp only [bytesOf?, CodePoint.toChar?, surrogate, if_true, number, if_pos inRange,
        Nat.add_sub_cancel_left, UInt8.ofNat_toNat]
    rw [bytesOfText?, ih, alone]
    rfl

/-- The text of a name leads back to it. -/
@[simp]
theorem ofText?_toText (name : FileName) : ofText? name.toText = some name := by
  rw [ofText?, toText, bytesOfText?_textOfBytes]
  rfl

theorem misfit?_eq_none_iff {text : Text} :
    misfit? text = none ↔ (ofText? text).isSome = true := by
  induction text with
  | nil => exact ⟨fun _ => rfl, fun _ => rfl⟩
  | cons c rest ih =>
    rw [ofText?, Option.isSome_map] at ih ⊢
    rw [misfit?, bytesOfText?]
    cases bytesOf? c with
    | none => exact ⟨nofun, nofun⟩
    | some bytes =>
      dsimp only
      rw [Option.map_eq_none_iff, ih]
      cases bytesOfText? rest with
      | none => exact Iff.rfl
      | some more => exact ⟨fun _ => rfl, fun _ => rfl⟩

end FileName

/-! ## Names that can be opened -/

/-- A text that stands for bytes, none of which is zero. -/
def Openable (name : Text) : Prop := ∃ file, FileName.ofText? name = some file ∧ 0 ∉ file.bytes

end HookScript.CommandLine
