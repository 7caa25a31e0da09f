/-
# Format versions

The second word of a file names the compiler version as four letters, such as `407*` for 4.7: a
major digit, two minor digits, and a status letter that counts only when two versions are compared.
Majors 4 to 7 share one record layout; from 4.7 on, records of functions carry a second checksum.
-/
import ArcCoverage.Format.ByteOrder
import ArcCoverage.Text.Utf8

namespace ArcCoverage

/-- The letters of a version word. -/
structure Version where
  major : UInt8
  tens : UInt8
  ones : UInt8
  status : UInt8
  deriving DecidableEq, Repr

namespace Version

/-- Whether a byte is an ASCII digit. -/
def isDigit (b : UInt8) : Bool := 0x30 ≤ b && b ≤ 0x39

/-- Whether the record layout of a version is known. -/
def isSupported (v : Version) : Bool :=
  0x34 ≤ v.major && v.major ≤ 0x37 && isDigit v.tens && isDigit v.ones

/-- The letters of a word, the highest byte first. -/
def ofWord (w : UInt32) : Version :=
  let q := Quad.ofWord w
  ⟨q.b3, q.b2, q.b1, q.b0⟩

/-- The word that spells a version. -/
def toWord (v : Version) : UInt32 := Quad.toWord ⟨v.status, v.ones, v.tens, v.major⟩

theorem ofWord_toWord (v : Version) : ofWord v.toWord = v := by
  simp only [ofWord, toWord, Quad.ofWord_toWord]

/-- The letters in the order in which they are written. -/
def letters (v : Version) : List UInt8 := [v.major, v.tens, v.ones, v.status]

/-- The version number before the point. -/
def majorNumber (v : Version) : Nat := v.major.toNat - 0x30

/-- The version number behind the point. -/
def minorNumber (v : Version) : Nat := (v.tens.toNat - 0x30) * 10 + (v.ones.toNat - 0x30)

/-- Whether records of functions carry a checksum of the control flow. -/
def hasFlowChecksum (v : Version) : Bool := v.majorNumber > 4 || v.minorNumber ≥ 7

/-- The version as it is shown, such as `4.7`. -/
def text (v : Version) : String := s!"{v.majorNumber}.{v.minorNumber}"

/-- The tag as it is shown when it is not understood. -/
def tagText (v : Version) : String := Utf8.decode v.letters

end Version

end ArcCoverage
