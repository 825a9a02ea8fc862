import LoxFrontEnd.Text.Newline
import LoxFrontEnd.Text.Quoted
import LoxFrontEnd.Text.Utf8

/-!
# Reading files

A directory is what the names in it stand for. A file is read as text: its bytes are strict UTF-8, a
byte order mark is an ordinary character, and every line end becomes a newline. The system has a number
and a reason for whatever it cannot open. A text with a null character in it is no name at all; the
system is not even asked.
-/

namespace LoxFrontEnd

/-! ### Failures -/

structure SystemError where
  number : Nat
  reason : String
deriving DecidableEq

namespace SystemError

def missing : SystemError := ⟨2, "No such file or directory"⟩

def notDirectory : SystemError := ⟨20, "Not a directory"⟩

def isDirectory : SystemError := ⟨21, "Is a directory"⟩

def nameTooLong : SystemError := ⟨36, "File name too long"⟩

end SystemError

inductive ReadError where
  | system (error : SystemError)
  | nullInName
  | undecodable (fault : Utf8.Fault)
deriving DecidableEq

def ReadError.message (path : String) : ReadError → String
  | system e => "[Errno " ++ toString e.number ++ "] " ++ e.reason ++ ": " ++ quoted path
  | nullInName => "embedded null byte"
  | undecodable fault => fault.message

/-! ### Directories -/

structure FileName where
  text : String
  nonnull : '\x00' ∉ text.toList := by decide
deriving DecidableEq

def FileName.of? (text : String) : Option FileName :=
  if h : '\x00' ∈ text.toList then none else some ⟨text, h⟩

/-- A file or a directory, or something that the system refuses to read. -/
inductive Entry where
  | file (bytes : List UInt8)
  | directory
  | refused (error : SystemError)
deriving DecidableEq

/-- The names in a directory; the first entry of a name counts. -/
abbrev Directory := List (FileName × Entry)

namespace Directory

def lookup (d : Directory) (path : String) : Option Entry :=
  (d.find? fun q => q.1.text == path).map Prod.snd

theorem notMem_of_lookup {d : Directory} {path : String} {e : Entry} (h : d.lookup path = some e) :
    '\x00' ∉ path.toList := by
  obtain ⟨⟨name, entry⟩, hfind, -⟩ := Option.map_eq_some_iff.1 h
  have hname := List.find?_some hfind
  rw [← eq_of_beq hname]
  exact name.nonnull

/-- The names of a path, followed one by one. What is named too long ends the way, and so does what is
no directory; a slash at the end of the path asks for a directory. -/
def absenceFrom (d : Directory) (reached : List Char) : List (List Char) → SystemError
  | [] => .isDirectory
  | name :: more =>
    let next := reached ++ name
    if name = [] then d.absenceFrom (next ++ ['/']) more
    else if 255 < (String.ofList name).utf8ByteSize then .nameTooLong
    else
      match d.lookup (String.ofList next) with
      | none => .missing
      | some (.file _) => .notDirectory
      | some .directory => d.absenceFrom (next ++ ['/']) more
      | some (.refused e) => e

def absence (d : Directory) (path : String) : SystemError :=
  if path = "" then .missing
  else if 4095 < path.utf8ByteSize then .nameTooLong
  else d.absenceFrom [] (path.toList.splitOn '/')

end Directory

def decodeText (bytes : List UInt8) : Except Utf8.Fault String :=
  (Utf8.decode bytes).map fun text => String.ofList (Newline.normalise text)

def Directory.readText (d : Directory) (path : String) : Except ReadError String :=
  if '\x00' ∈ path.toList then .error .nullInName
  else
    match d.lookup path with
    | none => .error (.system (d.absence path))
    | some .directory => .error (.system .isDirectory)
    | some (.refused e) => .error (.system e)
    | some (.file bytes) => (decodeText bytes).mapError .undecodable

theorem Directory.readText_of_lookup {d : Directory} {path : String} {bytes : List UInt8}
    (h : d.lookup path = some (.file bytes)) :
    d.readText path = (decodeText bytes).mapError .undecodable := by
  rw [readText, if_neg (notMem_of_lookup h), h]

end LoxFrontEnd
