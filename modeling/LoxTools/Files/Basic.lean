/-!
# Files

What a run can learn about files is what stands at a path: nothing, a directory, a regular
file, or a device that can be read like a file but is none. Reading gives all the bytes that are there,
unless the operating system refuses it. A file system is that answer for every path; nothing in a
run changes it.
-/

namespace LoxTools

/-- What comes of reading something to its end. -/
inductive Content where
  /-- its bytes -/
  | bytes (bytes : ByteArray)
  /-- nothing, for the reason that the operating system states -/
  | refused (reason : String)

instance : Coe ByteArray Content := ⟨.bytes⟩

/-- What stands at a path. -/
inductive FileEntry where
  /-- nothing -/
  | missing
  /-- a directory -/
  | directory
  /-- a regular file, with what comes of reading it -/
  | file (content : Content)
  /-- something that is no regular file, with what comes of reading it -/
  | device (content : Content)

/-- What stands at each path. -/
structure FileSystem where
  /-- the entry at a path, seen from the working directory -/
  entry : String → FileEntry

/-- Why something that exists cannot be read as text. -/
inductive ReadFault where
  /-- the bytes are not UTF-8 -/
  | invalidText
  /-- there is a directory, not a file -/
  | isDirectory
  /-- the operating system refuses to read it, for this reason -/
  | refused (reason : String)
  deriving DecidableEq, Repr

/-- The wording of a read fault. -/
def ReadFault.message : ReadFault → String
  | .invalidText => "stream did not contain valid UTF-8"
  | .isDirectory => "Is a directory (os error 21)"
  | .refused reason => reason

/-- The text that was read, if there are bytes and they encode one. -/
def decodeText : Content → Except ReadFault String
  | .refused reason => .error (.refused reason)
  | .bytes bytes =>
    match String.fromUTF8? bytes with
    | some text => .ok text
    | none => .error .invalidText

/-- A text is read back from its own bytes. -/
theorem decodeText_toByteArray (text : String) : decodeText text.toByteArray = .ok text := by
  rw [decodeText, String.fromUTF8?, dif_pos text.isValidUTF8]
  rfl

end LoxTools
