import Conformance.Text.Utf8
/-!
# Raw text

The programs of a machine work on bytes. Their texts are *raw*: every character of a raw text has a
number below 256 and stands for the byte of that number. So literals and patterns can be written as
texts, and nothing is lost of bytes that are no text.
-/

namespace Conformance.Machine.RawText

def toBytes (s : String) : ByteArray := ⟨(s.toList.map fun c ↦ UInt8.ofNat c.toNat).toArray⟩

def ofBytes (b : ByteArray) : String := String.ofList (b.toList.map fun x ↦ Char.ofNat x.toNat)

def ofText (s : String) : String := ofBytes s.toUTF8

def toText (s : String) : String := String.ofList (Utf8.decodeLossy (toBytes s).toList)

end Conformance.Machine.RawText
