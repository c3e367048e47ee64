import AccelPipe.Config.Read
import AccelPipe.Files.Basic
import AccelPipe.Value.Json.Reader

/-! Configurations in files. -/
namespace AccelPipe.Config

def fileComplaint {α : Type} (complaint : Complaint) : Except Failure α :=
  .error (.config ⟨"file", complaint⟩)

/-- What a fault in the text of a file comes to. A text that is no JSON is a fault of the
configuration; one that goes beyond a limit is refused. -/
def unread {α : Type} (path : String) : Json.Fault Json.Position → Except Failure α
  | .malformed complaint place =>
    fileComplaint (.unreadable path (complaint.message ++ ": " ++ place.message))
  | .tooLong digits => .error (.refused (.tooLong digits))
  | .tooDeep => .error .tooDeep

/-- The configuration in a file. A file that cannot be opened is a fault of the configuration; one
that is no text is refused as such. -/
def ofFile (files : Files) (path : String) : Except Failure Config :=
  match files.text path with
  | .error (.file f) => fileComplaint (.unreadable path f.message)
  | .error e => .error e
  | .ok text =>
    match Json.read text with
    | .error fault => unread path fault
    | .ok (.record settings) => (Config.read settings).mapError .ofConfig
    | .ok _ => fileComplaint (.noRecord path)

end AccelPipe.Config
