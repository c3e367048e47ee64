import AccelPipe.Commit
import AccelPipe.Pipeline.Hazard

/-! What the counters of a run count. A counter grows by the events of its own key, and no other
counter changes with it. -/
namespace AccelPipe

/-- Counters after some events, one after the other. -/
def bumpAll {α : Type} [DecidableEq α] (counts : List (α × Int)) (events : List α) :
    List (α × Int) :=
  events.foldl (fun counts event => bump counts event 1) counts

/-- What has been counted of one key. -/
def countOf {α : Type} [DecidableEq α] (counts : List (α × Int)) (key : α) : Int :=
  (counts.lookup key).getD 0

section Counters

variable {α : Type} [DecidableEq α]

/-- Adding to a counter leaves the others alone. -/
@[simp]
theorem countOf_bump (counts : List (α × Int)) (key other : α) (n : Int) :
    countOf (bump counts key n) other = countOf counts other + if key = other then n else 0 := by
  unfold countOf
  induction counts with
  | nil =>
      by_cases hSame : key = other
      · simp [bump, hSame]
      · simp [bump, List.lookup_cons, hSame, beq_eq_false_iff_ne.mpr (Ne.symm hSame)]
  | cons entry rest ih =>
      obtain ⟨k, count⟩ := entry
      unfold bump
      by_cases hKey : k = key
      · rw [if_pos hKey, List.lookup_cons, List.lookup_cons]
        by_cases hOther : other = k
        · simp [hOther, hKey]
        · simp [beq_eq_false_iff_ne.mpr hOther, show ¬ key = other by rw [← hKey]; exact Ne.symm hOther]
      · rw [if_neg hKey, List.lookup_cons, List.lookup_cons]
        by_cases hOther : other = k
        · simp [hOther, Ne.symm hKey]
        · simp only [beq_eq_false_iff_ne.mpr hOther]
          exact ih

/-- Events are counted one by one. -/
theorem countOf_bumpAll (counts : List (α × Int)) (events : List α) (key : α) :
    countOf (bumpAll counts events) key = countOf counts key + events.count key := by
  unfold bumpAll
  induction events generalizing counts with
  | nil => simp
  | cons event rest ih =>
      rw [List.foldl_cons, ih, countOf_bump, List.count_cons]
      by_cases hSame : event = key <;> simp [hSame]
      omega

/-- A key that is counted already keeps its place. -/
theorem keys_bump {counts : List (α × Int)} {key : α} (h : key ∈ counts.map (·.1)) (n : Int) :
    (bump counts key n).map (·.1) = counts.map (·.1) := by
  induction counts with
  | nil => cases h
  | cons entry rest ih =>
      obtain ⟨k, count⟩ := entry
      unfold bump
      split
      · rfl
      · rename_i hOther
        rw [List.map_cons, List.map_cons, ih]
        rcases List.mem_cons.mp h with hSame | hRest
        · exact absurd hSame.symm hOther
        · exact hRest

end Counters

namespace Hazard.Counters

/-- No path is unknown to the forwarding counters. -/
theorem keys_note {counters : Counters} (h : counters.map (·.1) = ForwardPath.all)
    (paths : List ForwardPath) : (counters.note paths).map (·.1) = ForwardPath.all := by
  unfold note
  induction paths generalizing counters with
  | nil => exact h
  | cons path rest ih =>
      apply ih
      rw [keys_bump (by rw [h]; cases path <;> decide)]
      exact h

end Hazard.Counters

namespace CoveragePoint

/-- Every point is known by its name. -/
theorem ofName_name (p : CoveragePoint) : ofName p.name = .ok p := by
  have hKnown : ofName? p.name = some p := by
    cases p with
    | kind k => cases k <;> decide
    | path q =>
        cases q with
        | forward path => cases path <;> decide
        | stall cause => cases cause <;> decide
        | _ => decide
  unfold ofName
  rw [hKnown]

end CoveragePoint

namespace Coverage

variable (c : Coverage)

/-- A path, counted once. -/
def hitPath (path : HazardPath) (cycle : Nat) : Coverage := c.hit (.path path) cycle 1

/-- A committed instruction and the paths that its operands took, counted once each. -/
def committed (kind : Kind) (cycle : Nat) (paths : List ForwardPath) : Coverage :=
  paths.foldl (fun c path => c.hitPath (.forward path) cycle) (c.hit (.kind kind) cycle 1)

/-! A point is counted under its name, and no name of a point is refused. -/

/-- A point is hit by its name. -/
theorem hitName_name (p : CoveragePoint) (cycle : Int) :
    c.hitName p.name cycle = .ok (c.hit p cycle 1) := by
  unfold hitName
  rw [p.ofName_name]
  rfl

theorem hitName_path (path : HazardPath) (cycle : Nat) :
    c.hitName path.name cycle = .ok (c.hitPath path cycle) := c.hitName_name (.path path) cycle

/-- Forwarding paths are hit by their names. -/
theorem hitNames_forwards (paths : List ForwardPath) (cycle : Nat) :
    hitNames cycle c (paths.map ForwardPath.name) =
      (.ok (), paths.foldl (fun c path => c.hitPath (.forward path) cycle) c) := by
  induction paths generalizing c with
  | nil => rfl
  | cons path rest ih =>
      rw [List.map_cons, hitNames, show path.name = (HazardPath.forward path).name from rfl,
        hitName_path]
      exact ih _

/-- A commit is covered: all names that it gives are known. -/
theorem commit_eq (kind : Kind) (cycle : Nat) (paths : List ForwardPath) :
    c.commit kind cycle paths = (.ok (), c.committed kind cycle paths) := by
  unfold commit committed
  rw [hitNames, show kind.name = (CoveragePoint.kind kind).name from rfl, hitName_name]
  exact hitNames_forwards _ paths cycle

/-- How often a path has been reached. -/
def hitsOf (path : HazardPath) : Int := c.countOf (.path path)

@[simp]
theorem hitsOf_hitPath (path other : HazardPath) (cycle : Nat) :
    (c.hitPath path cycle).hitsOf other = c.hitsOf other + if path = other then 1 else 0 :=
  countOf_bump c.paths path other 1

@[simp]
theorem kinds_hitPath (path : HazardPath) (cycle : Nat) :
    (c.hitPath path cycle).kinds = c.kinds := rfl

section HitEach

variable {α : Type} (f : α → HazardPath)

/-- Paths that are reached one after the other count no instruction. -/
theorem kinds_hitEach (events : List α) (cycle : Nat) :
    (events.foldl (fun c event => c.hitPath (f event) cycle) c).kinds = c.kinds := by
  induction events generalizing c with
  | nil => rfl
  | cons event rest ih => exact ih _

/-- Events that hit paths are counted under their own paths. -/
theorem hitsOf_hitEach (events : List α) (cycle : Nat) (path : HazardPath) :
    (events.foldl (fun c event => c.hitPath (f event) cycle) c).hitsOf path =
      c.hitsOf path + events.countP (f · = path) := by
  induction events generalizing c with
  | nil => simp
  | cons event rest ih =>
      rw [List.foldl_cons, ih, hitsOf_hitPath, List.countP_cons]
      by_cases hSame : f event = path <;> simp [hSame]
      omega

end HitEach

/-- The stalls of a tick, counted one after the other. -/
def stalled (stalls : List StallCause) (cycle : Nat) : Coverage :=
  stalls.foldl (fun c cause => c.hitPath (.stall cause) cycle) c

/-- Stalls are no commits. -/
theorem kinds_stalled (stalls : List StallCause) (cycle : Nat) :
    (c.stalled stalls cycle).kinds = c.kinds :=
  c.kinds_hitEach .stall stalls cycle

/-- Stalls are counted by their causes. -/
theorem hitsOf_stalled (stalls : List StallCause) (cycle : Nat) (path : HazardPath) :
    (c.stalled stalls cycle).hitsOf path =
      c.hitsOf path + stalls.countP (HazardPath.stall · = path) :=
  c.hitsOf_hitEach .stall stalls cycle path

/-- A committed instruction, with the paths of its operands and whether its result was clamped. -/
def retired (r : Commit) : Coverage :=
  let c := c.committed r.ins.kind r.cycle r.paths
  if r.saturated then c.hitPath .saturation r.cycle else c

/-- An instruction that retires is counted under its kind. -/
theorem kinds_retired (r : Commit) : (c.retired r).kinds = bump c.kinds r.ins.kind 1 := by
  unfold retired committed
  dsimp only
  split
  · rw [kinds_hitPath, kinds_hitEach]
    rfl
  · rw [kinds_hitEach]
    rfl

/-- It is counted under the paths that it took, and under saturation if it was clamped. -/
theorem hitsOf_retired (r : Commit) (path : HazardPath) :
    (c.retired r).hitsOf path =
      c.hitsOf path + r.paths.countP (HazardPath.forward · = path) +
        if r.saturated ∧ path = .saturation then 1 else 0 := by
  have hKind : ∀ q, (c.hit (.kind r.ins.kind) r.cycle 1).hitsOf q = c.hitsOf q := fun _ => rfl
  unfold retired committed
  dsimp only
  split
  · rename_i hClamped
    rw [hitsOf_hitPath, hitsOf_hitEach, hKind]
    simp [hClamped, eq_comm]
  · rename_i hExact
    rw [hitsOf_hitEach, hKind]
    simp [hExact]

/-- Every name that has been reported is known. -/
def Known : Prop := ∀ hit ∈ c.log, ∃ p, CoveragePoint.ofName hit.1 = .ok p

namespace Known

variable {c : Coverage}

/-- A hit of a point is one by a known name. -/
theorem hit (h : c.Known) (p : CoveragePoint) (cycle count : Int) : (c.hit p cycle count).Known := by
  intro entry hIn
  rcases List.mem_cons.mp hIn with rfl | hOld
  · exact ⟨p, p.ofName_name⟩
  · exact h entry (by cases p <;> exact hOld)

theorem hitEach {α : Type} (f : α → HazardPath) (h : c.Known) (events : List α) (cycle : Nat) :
    (events.foldl (fun c event => c.hitPath (f event) cycle) c).Known := by
  induction events generalizing c with
  | nil => exact h
  | cons event rest ih => exact ih (h.hit _ _ _)

/-- Stalls are hit by known names, -/
theorem stalled (h : c.Known) (stalls : List StallCause) (cycle : Nat) :
    (c.stalled stalls cycle).Known := h.hitEach .stall stalls cycle

/-- and so is what an instruction that retires hits. -/
theorem retired (h : c.Known) (r : Commit) : (c.retired r).Known := by
  have hCommitted := (h.hit (.kind r.ins.kind) r.cycle 1).hitEach .forward r.paths r.cycle
  unfold Coverage.retired
  dsimp only
  split
  · exact hCommitted.hit _ _ _
  · exact hCommitted

end Known

end Coverage

end AccelPipe
