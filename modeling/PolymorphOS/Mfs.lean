import PolymorphOS.MdoVm
import PolymorphOS.Nvme
import PolymorphOS.RustStr

/-! The file system: a text table in block 0, the files' blocks after it, and the
policy gate in front of reading, deleting and renaming. -/
namespace PolymorphOS

structure FileEntry where
  name : List Char
  startLba : UInt64
  blockCount : UInt64
  deriving DecidableEq

namespace Mfs

open Kernel RustStr

/-- The text of block 0: empty when it is not UTF-8, and cut at the first NUL. -/
def mftText (mftBuffer : Block) : List Char :=
  ((Utf8.decode mftBuffer.1).getD []).takeWhile (· != '\x00')

/-- The first three `:`-separated parts of a line. -/
def lineParts (line : List Char) : Option (List Char × List Char × List Char) :=
  match line.splitOn ':' with
  | name::lbaStr::countStr::_ => some (name,lbaStr,countStr)
  | _ => none

def parseParts (parts : List Char × List Char × List Char) : Option FileEntry := do
  let lba ← parseU64 parts.2.1
  let count ← parseU64 parts.2.2
  return ⟨parts.1,lba,count⟩

def parseLine (line : List Char) : Option FileEntry := (lineParts line).bind parseParts

def magicText : List Char := "MFS_V1".toList

/-- The entries `read_mft` finds in block 0. -/
def parseMft (mftBuffer : Block) : List FileEntry :=
  let cleanMft := mftText mftBuffer
  if magicText.isPrefixOf cleanMft then ((lines cleanMft).drop 1).filterMap parseLine else []

def readMft : Kernel (List FileEntry) := do
  let mftBuffer ← nvme "MFT Read Failed" (·.readBlock 0)
  return parseMft mftBuffer

/-- `format!("{}:{}:{}", ..)`. -/
def formatEntry (entry : FileEntry) : List Char :=
  entry.name ++ ':'::(formatU64 entry.startLba ++ ':'::formatU64 entry.blockCount)

def tableText (entries : List FileEntry) : List Char :=
  magicText ++ '\n'::entries.flatMap fun entry => formatEntry entry ++ ['\n']

/-- The buffer `write_mft` hands to the drive: the text, cut at 4096 bytes. -/
def mftBlock (entries : List FileEntry) : Block :=
  .ofData ((Utf8.encode (tableText entries)).take 4096)

def writeMft (entries : List FileEntry) : Kernel Unit :=
  nvme "MFT Write Failed" (·.writeBlock 0 (mftBlock entries).1)

/-- `last_entry.start_lba + last_entry.block_count`, or 1 in an empty table. -/
def nextLba (build : Profile) (entries : List FileEntry) : Except Panic UInt64 :=
  match entries.getLast? with
  | none => .ok 1
  | some lastEntry => addU64 build lastEntry.startLba lastEntry.blockCount

def blocksNeeded (data : Slice) : UInt64 := (UInt64.ofNat data.bytes.length + 4095)/4096

/-- The `i`-th 4096 bytes of the data, fewer at its end. -/
def chunk (data : Slice) (i : ℕ) : List UInt8 := (data.bytes.drop (4096*i)).take 4096

/-- The writes of blocks `i`, …, `i + n - 1` of a file. -/
def writeBlocks (build : Profile) (start : UInt64) (data : Slice) (i : ℕ) : ℕ → Kernel Unit
  | 0 => pure ()
  | n+1 => do
    let lba ← ofPanic (addU64 build start (.ofNat i))
    nvme "Data block write failed" (·.writeBlock lba (chunk data i))
    writeBlocks build start data (i+1) n

def saveFile (build : Profile) (filename : List Char) (data : Slice) : Kernel Unit := do
  let entries ← readMft
  if entries.any (·.name == filename) then throw (.err "File already exists")
  else
    let start ← ofPanic (nextLba build entries)
    nvmeLock
    writeBlocks build start data 0 (blocksNeeded data).toNat
    writeMft (entries ++ [⟨filename,start,blocksNeeded data⟩])

/-- The line `find_file` settles on. Names are compared trimmed and up to ASCII case, a
line with broken numbers is passed over, and nothing checks the `MFS_V1` header. -/
def lookup (mftBuffer : Block) (targetFilename : List Char) : Option FileEntry :=
  ((lines (mftText mftBuffer)).drop 1).findSome? fun line => do
    let parts ← lineParts line
    if eqIgnoreAsciiCase (trim parts.1) (trim targetFilename) then parseParts parts else none

/-- A drive that is offline or fails to read counts as an empty table here. -/
def findFile (targetFilename : List Char) : Kernel (Option FileEntry)
  | none => .ok none none
  | some drive => match drive.readBlock 0 with
    | (.ok mftBuffer,drive) => .ok (lookup mftBuffer targetFilename) (some drive)
    | (.error _,drive) => .ok none (some drive)

def mdoMagic : List UInt8 := [0x4D,0x44,0x4F,0x01]

/-- `u32::from_le_bytes`. -/
def fromLeBytes (bytes : List UInt8) : ℕ := bytes.foldr (fun b acc => b.toNat + 256*acc) 0

/-- `buffer[lo..hi]`. -/
def bytesAt (buffer : Block) (lo hi : ℕ) : List UInt8 := (buffer.1.drop lo).take (hi - lo)

def bytecodeLen (firstBlock : Block) : ℕ := fromLeBytes (bytesAt firstBlock 76 80)

def bytecodeOf (firstBlock : Block) : List UInt8 :=
  bytesAt firstBlock 128 (128 + bytecodeLen firstBlock)

/-- What `verify_mdo_access` makes of a file's first block: the offset of the payload. -/
def gate (firstBlock : Block) (context : MdoContext) : Except String ℕ :=
  if bytesAt firstBlock 0 4 ≠ mdoMagic then
    .error "Not a valid MDO file. Zero-Trust Access Denied."
  else if 3968 < bytecodeLen firstBlock then .error "Corrupted MDO: Bytecode too large."
  else match MdoVm.executeMictCheck (bytecodeOf firstBlock) context with
    | .error _ => .error "Access Denied by MDO Security Policy"
    | .ok () => .ok (128 + bytecodeLen firstBlock)

def verifyMdoAccess (startLba : UInt64) (context : MdoContext) : Kernel ℕ := do
  let firstBlock ← nvme "Hardware read failed" (·.readBlock startLba)
  ofErr (gate firstBlock context)

/-- The reads of blocks `i`, …, `i + n - 1` of a file. -/
def readBlocks (build : Profile) (start : UInt64) (i : ℕ) : ℕ → Kernel (List UInt8)
  | 0 => pure []
  | n+1 => do
    let lba ← ofPanic (addU64 build start (.ofNat i))
    let buffer ← nvme "Hardware read failed" (·.readBlock lba)
    let rest ← readBlocks build start (i+1) n
    return buffer.1 ++ rest

def readFile (build : Profile) (filename : List Char) (context : MdoContext) :
    Kernel (List UInt8) := do
  match ← findFile filename with
  | some entry =>
    let payloadStartOffset ← verifyMdoAccess entry.startLba context
    -- the capacity asked for; the allocation itself is taken to succeed
    let _ ← ofPanic (mulU64 build entry.blockCount 4096)
    let buffer ← nvme "Hardware read failed" (·.readBlock entry.startLba)
    let rest ← readBlocks build entry.startLba 1 (entry.blockCount.toNat - 1)
    return buffer.1.drop payloadStartOffset ++ rest
  | none => throw (.err "File not found")

def deleteFile (filename : List Char) (context : MdoContext) : Kernel Unit := do
  let entries ← readMft
  match entries.findFinIdx? (·.name == filename) with
  | some pos =>
    let _ ← verifyMdoAccess (entries.get pos).startLba context
    writeMft (entries.eraseIdx pos)
  | none => throw (.err "File not found")

def renameFile (oldName newName : List Char) (context : MdoContext) : Kernel Unit := do
  let entries ← readMft
  if entries.any (·.name == newName) then throw (.err "Target filename already exists.")
  else match entries.findFinIdx? (·.name == oldName) with
    | some pos =>
      let _ ← verifyMdoAccess (entries.get pos).startLba context
      writeMft (entries.set pos {entries.get pos with name := newName})
    | none => throw (.err "File not found")

end Mfs
end PolymorphOS
