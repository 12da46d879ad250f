import CutsceneCatalog.Text.Unicode
import CutsceneCatalog.Text.Utf8

/-!
# Encodings

How the bytes of a document are read as text.  The first bytes show how many of them make a
character; the document's declaration may then name another encoding.  Without either, a document is
UTF-8.

A few names are registered, and an encoding of such a name has to be of the width that the first
bytes show.  Every other name is given to the codecs at hand (`Codecs`), of which nothing is known
here: one that makes a character of each byte is a table for the rest of the document.  A codec that
does not, or a name without one, is a fault that is told apart from the others.
-/

namespace CutsceneCatalog
namespace Markup

/-- Why there is no table of characters for the name of an encoding. -/
inductive CodecFault
  /-- No codec goes by the name. -/
  | unknown (name : String)
  /-- The codec does not make one character of each byte. -/
  | notSingleByte
  /-- Any other failure of a codec, with its kind and its wording. -/
  | failed (kind message : String)
deriving DecidableEq, Repr

/-- The codecs at hand, by any name: the text that a codec makes of all bytes in order, with U+FFFD
for what it cannot read. -/
abbrev Codecs := String → Except CodecFault String

/-- Why a document has no tree. -/
inductive Fault
  | malformed
  /-- The declared encoding is none that a document can be read in. -/
  | codec (fault : CodecFault)
deriving DecidableEq, Repr

/-- The encodings a document may be written in. -/
inductive Encoding
  | utf8
  | utf16 (order : Text.ByteOrder)
  | latin1
  | ascii
  /-- One character for each byte, or none for a byte that cannot be read. -/
  | table (characters : List (Option Char))
deriving DecidableEq, Repr

namespace Encoding

/-- The characters of bytes below `bound`, each byte its own number. -/
def singleBytes? (bound : Nat) (bs : List UInt8) : Option (List Char) :=
  bs.mapM fun b => if b.toNat < bound then some (Char.ofNat b.toNat) else none

/-- The text that bytes encode. -/
def decode? : Encoding → List UInt8 → Option (List Char)
  | .utf8, bs => (Text.utf8 bs).toOption
  | .utf16 order, bs => Text.utf16? order bs
  | .latin1, bs => singleBytes? 256 bs
  | .ascii, bs => singleBytes? 128 bs
  | .table characters, bs => bs.mapM fun b => (characters[b.toNat]?).join

/-- Two bytes make a character, at least. -/
def isWide : Encoding → Bool
  | .utf16 _ => true
  | _ => false

/-- The least number of bytes of a character. -/
def width (encoding : Encoding) : Nat := if encoding.isWide then 2 else 1

/-- The encoding that the first bytes show, and the bytes after a byte order mark. -/
def detect : List UInt8 → Encoding × List UInt8
  | 0xFE :: 0xFF :: rest => (.utf16 .bigEndian, rest)
  | 0xFF :: 0xFE :: rest => (.utf16 .littleEndian, rest)
  | 0xEF :: 0xBB :: 0xBF :: rest => (.utf8, rest)
  | bs@(0 :: _ :: _) => (.utf16 .bigEndian, bs)
  | bs@(_ :: 0 :: _) => (.utf16 .littleEndian, bs)
  | bs => (.utf8, bs)

/-! ## Declared names -/

/-- The encodings that go by a registered name, in whatever letter case. -/
def registered? (name : String) : Option (List Encoding) :=
  match String.ofList (name.toList.map Char.toUpper) with
  | "UTF-8" => some [.utf8]
  | "ISO-8859-1" => some [.latin1]
  | "US-ASCII" => some [.ascii]
  | "UTF-16" => some [.utf16 .bigEndian, .utf16 .littleEndian]
  | "UTF-16BE" => some [.utf16 .bigEndian]
  | "UTF-16LE" => some [.utf16 .littleEndian]
  | _ => none

/-- Whether a document that begins in `current` may go on in an encoding: the number of bytes of a
character cannot change, and neither can their order. -/
def mayBecome (current next : Encoding) : Bool :=
  if next.isWide then current == next else !current.isWide

/-- A character with a part in markup, or in the words of a declaration. -/
def isMarkup (c : Char) : Bool :=
  c == '\t' || c == '\n' || c == '\r'
    || (' ' ≤ c && c ≤ '|' && !("$@\\^`\x7b".toList.contains c))

/-- Whether each character of markup stands under its own number and under no other, and no
character needs more than sixteen bits. -/
def keepsMarkup (characters : List (Option Char)) : Bool :=
  characters.zipIdx.all fun (c?, n) =>
    match c? with
    | none => !isMarkup (Char.ofNat n)
    | some c => c.toNat ≤ 0xFFFF && (c.toNat == n || !(isMarkup c || isMarkup (Char.ofNat n)))

/-- The characters of all bytes in a text that a codec made of them. -/
def charactersOf (text : String) : List (Option Char) :=
  text.toList.map fun c => if c = '\uFFFD' then none else some c

/-- The encoding that the codec of a name gives. -/
def ofCodec (codecs : Codecs) (name : String) : Except Fault Encoding :=
  match codecs name with
  | .error fault => .error (.codec fault)
  | .ok text =>
      if text.length ≠ 256 then .error (.codec .notSingleByte)
      else if keepsMarkup (charactersOf text) then .ok (.table (charactersOf text))
      else .error .malformed

/-- The encoding of a document that begins in `current` and declares `name`.  Only a registered name
is held to the width of `current`. -/
def declared (codecs : Codecs) (current : Encoding) (name : String) : Except Fault Encoding :=
  match registered? name with
  | none => ofCodec codecs name
  | some encodings =>
      match encodings.find? current.mayBecome with
      | some encoding => .ok encoding
      | none => .error .malformed

/-- The beginning of a document, read far enough to show its declaration: what is not ASCII is no
part of one. -/
def glimpse : Encoding → List UInt8 → List Char
  | .utf16 order, bs =>
      ((Text.utf16Units? order (bs.take (bs.length / 2 * 2))).getD []).map fun n =>
        if n < 128 then Char.ofNat n else '\uFFFD'
  | _, bs => bs.map fun b => if b.toNat < 128 then Char.ofNat b.toNat else '\uFFFD'

end Encoding

end Markup
end CutsceneCatalog
