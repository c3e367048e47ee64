import AccelPipe.Value

/-! Why a configuration is rejected: the field and the complaint about it. -/
namespace AccelPipe

inductive Complaint where
  | unknownField
  | notInteger (got : Value)
  | notText (got : Value)
  | notTruth (got : Value)
  | notTable (got : Value)
  | notCoefficients (got : Value)
  | notOneOf (options : List String) (got : String)
  | accumulatorWidth (low got : Int)
  | bankCount (got : Int)
  | portCount (got : Int)
  | noLatency
  | noInterleave
  | unevenMemory (words unit : Int)
  | negativePrefetch
  | lonePrefetch
  | kernelSize (got : Int)
  | kernelCount (count : Nat) (size : Int)
  | kernelRows
  | tapCount (got : Int)
  | coefficientCount (count : Nat) (taps : Int)
  | coefficient (index : Nat) (got : Int) (bits : Nat)
  | poolWindow (got : Int)
  | noStride
  | noBudget
  | unalignedStart
  /-- A file that cannot be read as data. -/
  | unreadable (path reason : String)
  /-- A file whose data is no record. -/
  | noRecord (path : String)

namespace Complaint

def textList (options : List String) : String :=
  "[" ++ String.intercalate ", " (options.map Text.quoted) ++ "]"

def message : Complaint → String
  | unknownField => "unknown configuration field"
  | notInteger got => "must be an integer, got " ++ got.shown
  | notText got => "must be a string, got " ++ got.shown
  | notTruth got => "must be true or false, got " ++ got.shown
  | notTable got => "must be a non-empty list of integers, got " ++ got.shown
  | notCoefficients got => "coefficients must be integers, got " ++ got.shown
  | notOneOf options got =>
    "must be one of " ++ textList options ++ ", got " ++ Text.quoted got
  | accumulatorWidth low got =>
    "must be between " ++ Text.decimal low ++ " and 64, got " ++ Text.decimal got
  | bankCount got => "must be 2..8, got " ++ Text.decimal got
  | portCount got => "must be 1 (single) or 2 (dual), got " ++ Text.decimal got
  | noLatency => "must be at least 1 tick"
  | noInterleave => "must be at least 1 word"
  | unevenMemory words unit =>
    Text.decimal words ++ " is not a multiple of bank_count*interleave (" ++
      Text.decimal unit ++ ")"
  | negativePrefetch => "prefetch stride/window cannot be negative"
  | lonePrefetch => "prefetch_stride and prefetch_window must both be set or both be 0"
  | kernelSize got => "must be 3 or 5, got " ++ Text.decimal got
  | kernelCount count size =>
    Text.decimal count ++ " coefficients for a " ++ Text.decimal size ++ "x" ++
      Text.decimal size ++ " kernel"
  | kernelRows => "kernel rows do not match kernel_size"
  | tapCount got => "must be 1..64, got " ++ Text.decimal got
  | coefficientCount count taps =>
    Text.decimal count ++ " coefficients for " ++ Text.decimal taps ++ " taps"
  | coefficient index got bits =>
    "coefficient " ++ Text.decimal index ++ " = " ++ Text.decimal got ++
      " does not fit INT" ++ Text.decimal bits
  | poolWindow got => "must be 1..8, got " ++ Text.decimal got
  | noStride => "must be at least 1"
  | noBudget => "must be positive"
  | unalignedStart => "must be word aligned"
  | unreadable path reason => "cannot load " ++ path ++ ": " ++ reason
  | noRecord path => path ++ " does not contain a JSON object"

/-- How many levels of a value a complaint shows; a value that is no container has one. It can be one
more than a value has that is read from a text. -/
def maxLevels : Nat := 989

/-- What comes in the way of writing a complaint down. Sizes and places in a table never do. -/
def obstacle? : Complaint → Option Obstacle
  | notInteger got | notText got | notTruth got | notTable got | notCoefficients got =>
    got.obstacle? maxLevels
  | accumulatorWidth low got => Obstacle.ofNumbers? [low, got]
  | bankCount got | portCount got | kernelSize got | tapCount got | poolWindow got =>
    Obstacle.ofNumbers? [got]
  | unevenMemory words unit => Obstacle.ofNumbers? [words, unit]
  | kernelCount _ size => Obstacle.ofNumbers? [size]
  | coefficientCount _ taps => Obstacle.ofNumbers? [taps]
  | coefficient _ got _ => Obstacle.ofNumbers? [got]
  | _ => none

end Complaint

structure ConfigFault where
  field : String
  complaint : Complaint

def ConfigFault.message (f : ConfigFault) : String := f.field ++ ": " ++ f.complaint.message

/-- What reading a configuration ends with when it does not succeed. -/
inductive ConfigError where
  | fault (fault : ConfigFault)
  /-- A table mixes rows and single coefficients behind a first row. -/
  | mixedRows
  /-- A setting that no configuration has, given directly. -/
  | unknownSetting
  /-- A complaint that cannot be written down. -/
  | unwritable (obstacle : Obstacle)

end AccelPipe
