import BootConfig.Bytes.Basic
import BootConfig.Bytes.Order
import BootConfig.Elf.Error

/-!
# Content of an ELF image

The bytes of an image with the byte order in which its numbers are stored. The first six bytes
decide whether there is such a thing: four of a fixed mark, one for the class and one for the
order. Every read names its offset and fails where the image ends before.
-/

namespace BootConfig.Elf

/-- The bytes of an image and the byte order of its numbers. -/
structure Content where
  bytes : ByteArray
  order : ByteOrder

/-- A section as its header describes it. -/
structure Section where
  /-- Where its name starts among the section names. -/
  nameIndex : UInt32
  /-- Its address when the program runs. -/
  address : UInt32
  /-- Where its bytes start in the image. -/
  offset : UInt32
  /-- How many bytes it has. -/
  size : UInt32
  /-- The size of one entry, if it is a table. -/
  entrySize : UInt32
  deriving DecidableEq, Repr

/-- The bytes with which every ELF image starts: `7f` and `ELF`. -/
def magic : List UInt8 := [0x7f, 0x45, 0x4c, 0x46]

/-- The class of 32-bit images. -/
def class32 : UInt8 := 1

namespace Content

/-- The byte order that an image announces, one for the least significant byte first and two for
the most significant. -/
def orderOf (encoding : UInt8) : Except Error ByteOrder :=
  if encoding = 1 then .ok .little
  else if encoding = 2 then .ok .big
  else .error (.unsupportedEncoding encoding)

/-- Checks the identification of an image: the mark, then the class, then the byte order. -/
def ofBytes (bytes : ByteArray) : Except Error Content :=
  if Bytes.slice? bytes 0 magic.length = some magic then
    match bytes[4]?, bytes[5]? with
    | none, _ => .error .truncated
    | some imageClass, encoding =>
      if imageClass = class32 then
        match encoding with
        | none => .error .truncated
        | some encoding => (orderOf encoding).map fun order ↦ ⟨bytes, order⟩
      else .error (.unsupportedClass imageClass)
  else .error .notElf

/-- So many bytes at an offset. -/
def slice (content : Content) (offset size : Nat) : Except Error (List UInt8) :=
  match Bytes.slice? content.bytes offset size with
  | none => .error .truncated
  | some bytes => .ok bytes

/-- The number of so many bytes at an offset. -/
def number (content : Content) (offset size : Nat) : Except Error Nat :=
  (content.slice offset size).map content.order.decode

/-- The 16-bit number at an offset. -/
def half (content : Content) (offset : Nat) : Except Error UInt16 :=
  (content.number offset 2).map UInt16.ofNat

/-- The 32-bit number at an offset. -/
def word (content : Content) (offset : Nat) : Except Error UInt32 :=
  (content.number offset 4).map UInt32.ofNat

/-- The section header at an offset. Only the fields in use have to lie in the image. -/
def sectionAt (content : Content) (offset : Nat) : Except Error Section := do
  let nameIndex ← content.word offset
  let address ← content.word (offset + 12)
  let start ← content.word (offset + 16)
  let size ← content.word (offset + 20)
  let entrySize ← content.word (offset + 36)
  return ⟨nameIndex, address, start, size, entrySize⟩

/-- The section headers of a table of `count`, one every `stride` bytes. -/
def sections (content : Content) (start stride count : Nat) : Except Error (List Section) :=
  (List.range count).mapM fun n ↦ content.sectionAt (start + n * stride)

/-- The name that starts at an index of a section of names and ends before the next zero byte. The
whole section has to lie in the image, and the name in the section. -/
def nameAt (content : Content) (table : Section) (index : UInt32) : Except Error (List UInt8) :=
  let start := table.offset.toNat
  let size := table.size.toNat
  if start + size ≤ content.bytes.size then
    match Bytes.terminated? content.bytes (start + index.toNat) (size - index.toNat) with
    | none => .error .truncated
    | some name => .ok name
  else .error .truncated

/-- The first section that holds the given table, by its name among `names`. A name that cannot be
read ends the search. -/
def findSection (content : Content) (names : Section) (table : Table) :
    List Section → Except Error Section
  | [] => .error (.missingSection table)
  | candidate :: rest =>
    match content.nameAt names candidate.nameIndex with
    | .error e => .error e
    | .ok name =>
      if name = Bytes.toList table.name.toUTF8 then .ok candidate
      else findSection content names table rest

end Content

end BootConfig.Elf
