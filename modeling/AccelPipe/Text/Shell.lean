/-! Words of a command line. Blanks separate words; quotes and the backslash join what they
protect. Within double quotes a backslash protects only itself and the double quote; within
single quotes it is an ordinary character. -/
namespace AccelPipe.Text.Shell

/-- What a command line may lack at its end. -/
inductive Unfinished where
  | quotation
  | escape
deriving DecidableEq

/-- Where the reader stands. `escaped` remembers the double quote that it is within. -/
inductive Place where
  | between
  | word
  | quoted (mark : Char)
  | escaped (within : Option Char)

def isSeparator (c : Char) : Bool := c == ' ' || c == '\t' || c == '\r' || c == '\n'

def isQuote (c : Char) : Bool := c == '\'' || c == '\"'

/-- A finished word: it is dropped only if it is empty and no quote was seen in it. -/
def finish (seen : Bool) (current : List Char) : List (List Char) :=
  if current.isEmpty && !seen then [] else [current.reverse]

/-- Reads on from a place. `current` holds the characters of the word so far, newest first, and
`seen` whether the word has had a quote. -/
def readFrom (place : Place) (seen : Bool) (current : List Char) :
    List Char → Except Unfinished (List (List Char))
  | [] => match place with
    | .between | .word => .ok (finish seen current)
    | .quoted _ => .error .quotation
    | .escaped _ => .error .escape
  | c :: rest => match place with
    | .between | .word =>
      if isSeparator c then
        if current.isEmpty && !seen then readFrom .between false [] rest
        else do
          let words ← readFrom .between false [] rest
          return finish seen current ++ words
      else if c == '\\' then readFrom (.escaped none) seen current rest
      else if isQuote c then readFrom (.quoted c) true current rest
      else readFrom .word seen (c :: current) rest
    | .quoted mark =>
      if c == mark then readFrom .word true current rest
      else if c == '\\' && mark == '\"' then readFrom (.escaped (some mark)) true current rest
      else readFrom (.quoted mark) true (c :: current) rest
    | .escaped none => readFrom .word seen (c :: current) rest
    | .escaped (some mark) =>
      if c == '\\' || c == mark then readFrom (.quoted mark) true (c :: current) rest
      else readFrom (.quoted mark) true (c :: '\\' :: current) rest

def words (text : List Char) : Except Unfinished (List (List Char)) :=
  readFrom .between false [] text

end AccelPipe.Text.Shell
