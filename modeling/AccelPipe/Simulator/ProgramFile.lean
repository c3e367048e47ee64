import AccelPipe.Assembly.Program
import AccelPipe.Files.Basic
import AccelPipe.Image

/-! Programs in files: assembly text, told by the end of its name, or an image. -/
namespace AccelPipe

def isAssembly (path : String) : Bool := path.endsWith ".s" || path.endsWith ".asm"

/-- The program in a file. -/
def Image.ofFile (files : Files) (path : String) : Except Failure Image := do
  if isAssembly path then
    let p ← (Assembly.assemble (← files.text path) 0).mapError .ofAssembly
    return p.words.toArray
  else
    return (wordsOfBytes (← files.bytes path)).toArray

end AccelPipe
