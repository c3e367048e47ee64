import AccelPipe.Pipeline.Tick
import AccelPipe.Proofs.Coverage

/-! What a tick reports to coverage. A path is reported by its name, which might be refused; every
name that a stage uses is known, so that no stage fails for it. -/
namespace AccelPipe.Pipeline

/-- A pipeline with a path on record. -/
def covered (p : Pipeline) (path : HazardPath) (cycle : Nat) : Pipeline :=
  { p with coverage := p.coverage.hitPath path cycle }

/-- No report of a path is refused. -/
theorem cover_eq (p : Pipeline) (path : HazardPath) (cycle : Nat) :
    p.cover path cycle = .ok (p.covered path cycle) := by
  unfold cover
  rw [p.coverage.hitName_path]
  rfl

/-- A memory access that has been begun, a prefetched word being on record. -/
def begunAccess (p : Pipeline) (addr : Int) (isLoad : Bool) : Option Nat × Pipeline :=
  let hits := p.memory.prefetchHits
  let (ticks, memory) := p.memory.begin addr p.cycle isLoad
  let q := { p with memory }
  (ticks, if memory.prefetchHits = hits then q else q.covered .prefetchHit p.cycle)

theorem beginAccess_eq (p : Pipeline) (addr : Int) (isLoad : Bool) :
    p.beginAccess addr isLoad = .ok (p.begunAccess addr isLoad) := by
  unfold beginAccess begunAccess
  dsimp only
  split
  · rfl
  · rw [cover_eq]
    rfl

/-- A tick after Fetch, a jump being on record. -/
def madeFetch (m : Making) (slot : Option Slot) (decodeFree : Bool) (control : Control) : Making :=
  let p := m.pipeline
  match control with
  | .redirect target =>
    let p := { p with flushes := p.flushes + 1 }.covered .branchFlush p.cycle
    fetchFrom { m with pipeline := p } target
  | .stop => { m with pipeline := { p with fetchStopped := true } }
  | .goOn => followOn m slot decodeFree

theorem makeFetch_eq (m : Making) (slot : Option Slot) (decodeFree : Bool) (control : Control) :
    makeFetch m slot decodeFree control = .ok (madeFetch m slot decodeFree control) := by
  unfold makeFetch madeFetch
  cases control with
  | redirect target =>
      dsimp only
      rw [cover_eq]
      rfl
  | stop => rfl
  | goOn => rfl

end AccelPipe.Pipeline
