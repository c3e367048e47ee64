import AccelPipe.Simulator.Basic

/-! Independent runs under one configuration. -/
namespace AccelPipe

/-- A program with the data that is loaded before it runs. -/
structure Job where
  program : Image
  data : List (Int × List Int) := []

namespace Job

/-- The simulator after the run. -/
def run (c : Config) (j : Job) : Except Failure Simulator := do
  let loaded := ((← Simulator.create c).load j.program none).2
  match (j.data.foldl (fun s (addr, words) => s.preload addr words) loaded).run none with
  | (.ok (), s) => return s
  | (.error f, _) => throw f

/-- Programs with a matching list of data. An empty list means no data at all. -/
def pair (programs : List Image) (data : List (List (Int × List Int))) :
    Except Failure (List Job) :=
  if data.isEmpty then .ok (programs.map fun p => ⟨p, []⟩)
  else if data.length < programs.length then .error .indexOutOfRange
  else .ok (List.zipWith Job.mk programs data)

end Job

end AccelPipe
