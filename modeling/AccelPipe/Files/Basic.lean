import AccelPipe.Failure
import AccelPipe.Text.Blank

/-! Files as they are read: bytes behind a path, or the text that the bytes are. -/
namespace AccelPipe

abbrev Bytes := List UInt8

/-- The files that can be read, by path. -/
abbrev Files := String → Except FileFault Bytes

namespace Files

/-- The path of a file can be written as bytes and holds no null character. -/
def checkPath (path : String) : Except Failure Unit :=
  match Text.unencodable? 0 (Text.symbols path.toList) with
  | some cause => .error (.refused (.unencodable cause))
  | none =>
    if path.contains (Char.ofNat 0) then .error (.refused .nullCharacter) else .ok ()

def bytes (files : Files) (path : String) : Except Failure Bytes := do
  checkPath path
  (files path).mapError .file

/-- The text of a file, with line ends unified. -/
def text (files : Files) (path : String) : Except Failure (List Char) := do
  match Text.Utf8.decode (← files.bytes path) with
  | .ok cs => return Text.ofCharacters (Text.unifyLineEnds cs)
  | .error e => throw (.refused (.undecodable e))

end Files

end AccelPipe
