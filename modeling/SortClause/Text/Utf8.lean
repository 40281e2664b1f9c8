import SortClause.Text.Blank
/-!
Texts as bytes in UTF-8.  `decode?` accepts exactly the well-formed byte sequences.  Main statement:
what `encode` writes, `decode?` reads back (`decode?_encode`).
-/
namespace SortClause.Text

/-- The UTF-8 bytes of a text. -/
def encode (t : Text) : List UInt8 := t.flatMap String.utf8EncodeChar

/-- The text with these UTF-8 bytes, if they are well formed. -/
def decode? (bytes : List UInt8) : Option Text :=
  bytes.toByteArray.utf8Decode?.map Array.toList

/-- The number of UTF-8 bytes of a text. -/
def byteLength : Text → Nat
  | [] => 0
  | c :: r => c.utf8Size + byteLength r

/-- Reading the bytes of a text gives the text. -/
theorem decode?_encode (t : Text) : decode? (encode t) = some t := by
  have h : (encode t).toByteArray.utf8Decode? = some t.toArray := List.utf8Decode?_utf8Encode
  rw [decode?, h, Option.map_some]

end SortClause.Text
