import Piet.Image.Netpbm
import Piet.Text.Quoted

/-! The files a program is read from, and why one cannot be read. -/
namespace Piet

/-- Why the decoder makes no picture of a file. It is assumed to fail in no other way, least of all with
an error that nobody catches. -/
inductive DecodeError where
  | unidentified
  /-- The file was begun as a picture, but something is wrong with the rest. -/
  | damaged (reason : String)
  deriving DecidableEq

/-- The bytes of a file and what the decoder makes of them. A picture may be text as well. -/
structure File where
  content : ByteArray
  picture : Except DecodeError Image

/-- A file whose picture, if it is one, is of the plain kind. -/
def File.ofContent (content : ByteArray) : File where
  content := content
  picture := match Image.Netpbm.decode? content.toList with
    | some im => .ok im
    | none => .error .unidentified

inductive OpenError where
  | notFound
  | denied
  /-- A file stands where the name needs a directory. -/
  | notDirectory
  | isDirectory
  | nameTooLong
  deriving DecidableEq

abbrev Files := String → Except OpenError File

namespace OpenError

def number : OpenError → Nat
  | notFound => 2
  | denied => 13
  | notDirectory => 20
  | isDirectory => 21
  | nameTooLong => 36

def text : OpenError → String
  | notFound => "No such file or directory"
  | denied => "Permission denied"
  | notDirectory => "Not a directory"
  | isDirectory => "Is a directory"
  | nameTooLong => "File name too long"

def message (e : OpenError) (name : String) : String :=
  s!"[Errno {e.number}] {e.text}: " ++ Text.Quoted.text name

end OpenError

def DecodeError.message (name : String) : DecodeError → String
  | unidentified => "cannot identify image file " ++ Text.Quoted.text name
  | damaged reason => reason

/-- No file has such a name, and the system is not asked for one. -/
def holdsNul (name : String) : Bool := name.toList.contains '\x00'

def nulMessage : String := "embedded null byte"

/-- A line feed after a carriage return is dropped, and then every carriage return becomes a line
feed. -/
def Text.unifyLineEnds (cs : List Char) : List Char :=
  ((cs.zip ('\n' :: cs)).filter fun (c, before) => !(before == '\r' && c == '\n')).map
    fun (c, _) => if c == '\r' then '\n' else c

inductive TextError where
  | nulInName
  | unopened (name : String) (error : OpenError)
  | notUtf8
  deriving DecidableEq

/-- The content as text, whether the file is a picture or not. -/
def File.text? (file : File) : Option String :=
  (String.fromUTF8? file.content).map fun text => .ofList (Text.unifyLineEnds text.toList)

def Files.readText (files : Files) (name : String) : Except TextError String :=
  if holdsNul name then .error .nulInName
  else match files name with
    | .error e => .error (.unopened name e)
    | .ok file =>
      match file.text? with
      | some text => .ok text
      | none => .error .notUtf8

end Piet
