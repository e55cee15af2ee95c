import HookScript.Text.Basic

/-!
# UTF-8

Input arrives as bytes.  It is read as strict UTF-8: no surrogates, no overlong
forms, nothing beyond `U+10FFFF`.  A byte order mark stays part of the text.
Diagnostics may quote a lone surrogate, which no byte sequence encodes; there
it is spelled as an escape.
-/

namespace HookScript.Text

/-- The text that bytes encode, if they are well-formed. -/
def ofUtf8? (bytes : ByteArray) : Option Text := (String.fromUTF8? bytes).map ofString

/-- The bytes of a text without lone surrogates. -/
def toUtf8? (text : Text) : Option ByteArray := text.toString?.map String.toUTF8

end HookScript.Text
