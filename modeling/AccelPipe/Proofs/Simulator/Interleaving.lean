import AccelPipe.Proofs.Pipeline.Square
import AccelPipe.Proofs.Simulator.Runs
import Mathlib.Data.List.Induction

/-! Ticks and data in any order. The square that the convolution unit keeps follows every store of
the program, but not the data that is loaded while the program runs. -/
namespace AccelPipe

/-- The words of a square, place by place. -/
theorem Conv2d.Keeps.place {u : Conv2d} {memory : Int → Int} (h : u.Keeps memory) {o : Origin}
    (hOrigin : u.origin = some o) {i j : Nat} (hRow : i < u.size) (hColumn : j < u.size) :
    u.window[i * u.size + j]? = some (memory (o.base + i * o.pitch + j)) := by
  have hWithin : i * u.size + j < u.size * u.size := by
    calc i * u.size + j < i * u.size + u.size := Nat.add_lt_add_left hColumn _
      _ = (i + 1) * u.size := (Nat.succ_mul i u.size).symm
      _ ≤ u.size * u.size := Nat.mul_le_mul_right _ hRow
  obtain ⟨hDiv, hMod⟩ := place_div_mod hColumn i
  rw [h o hOrigin, squareAddrs_eq, List.map_map, List.getElem?_map, List.getElem?_range hWithin,
    Option.map_some, Function.comp_apply, hDiv, hMod]

theorem mem_squareAddrs {size : Nat} {base pitch place : Int}
    (h : place ∈ squareAddrs size base pitch) :
    ∃ i < size, ∃ j < size, place = base + i * pitch + j := by
  unfold squareAddrs at h
  obtain ⟨i, hRow, h⟩ := List.mem_flatMap.mp h
  obtain ⟨j, hColumn, rfl⟩ := List.mem_map.mp h
  exact ⟨i, List.mem_range.mp hRow, j, List.mem_range.mp hColumn, rfl⟩

/-- Other words of memory are no matter to the square. -/
theorem Conv2d.Keeps.congr {u : Conv2d} {memory memory' : Int → Int} (h : u.Keeps memory)
    (hSame : ∀ o, u.origin = some o → ∀ i < u.size, ∀ j < u.size,
      memory' (o.base + i * o.pitch + j) = memory (o.base + i * o.pitch + j)) :
    u.Keeps memory' := by
  intro o hOrigin
  rw [h o hOrigin]
  refine List.map_congr_left fun place hPlace => ?_
  obtain ⟨i, hRow, j, hColumn, rfl⟩ := mem_squareAddrs hPlace
  exact (hSame o hOrigin i hRow j hColumn).symm

namespace Simulator

/-- A tick, or data for the memory. -/
inductive Call where
  | tick
  | preload (addr : Int) (words : List Int)

/-- A simulator after a call, whether it failed or not. -/
def call (s : Simulator) : Call → Simulator
  | .tick => s.tick.2
  | .preload addr words => s.preload addr words

def callAll (s : Simulator) (calls : List Call) : Simulator := calls.foldl call s

/-- The words of the square that the convolution unit keeps are those that memory has in its
place. -/
def ShowsSquare (size : Nat) (s : Simulator) : Prop :=
  ∀ o, s.pipeline.units.conv2d.origin = some o → ∀ i < size, ∀ j < size,
    s.pipeline.units.conv2d.window[i * size + j]? =
      some (s.pipeline.memory.peek (o.base + i * o.pitch + j))

/-- A call leaves the words in the place of the square as they are, unless it is a tick. -/
def Spares (size : Nat) (s : Simulator) : Call → Prop
  | .tick => True
  | .preload addr words =>
      ∀ o, s.pipeline.units.conv2d.origin = some o → ∀ i < size, ∀ j < size,
        (s.preload addr words).pipeline.memory.peek (o.base + i * o.pitch + j) =
          s.pipeline.memory.peek (o.base + i * o.pitch + j)

variable {size : Nat} {s : Simulator}

theorem current_advance {p : Pipeline} (h : p.Current size) (budget : Int) :
    (advance budget p).2.Current size :=
  advance_keeps h (fun _ => h.tick) (fun _ => h.of_eq rfl rfl)
    (fun _ _ _ hOld => hOld.of_eq rfl rfl) budget

theorem current_build {c : Config} (h : c.Valid) (program : Image) :
    (build c program []).Current c.kernelSize where
  positive := by
    have := h.kernelSize
    omega
  size := by
    rw [build_eq]
    rfl
  words := by
    rw [build_eq]
    rfl
  even := by
    rw [build_eq]
    exact (Memory.sound_fresh h).toEven
  keeps := by
    rw [build_eq]
    nofun

/-- Data keeps the square current exactly if it spares it. -/
theorem current_preload {addr : Int} {words : List Int} (h : s.pipeline.Current size)
    (hSpares : s.Spares size (.preload addr words)) :
    (s.preload addr words).pipeline.Current size where
  positive := h.positive
  size := h.size
  words := h.words.trans (Memory.load_size _ _ _).symm
  even := Memory.load_even h.even addr words
  keeps := h.keeps.congr (h.size.symm ▸ hSpares)

theorem current_call (h : s.pipeline.Current size) {c : Call} (hSpares : s.Spares size c) :
    (s.call c).pipeline.Current size := by
  cases c with
  | tick => exact current_advance h _
  | preload addr words => exact current_preload h hSpares

theorem shows_of_current (h : s.pipeline.Current size) : s.ShowsSquare size := by
  intro o hOrigin i hRow j hColumn
  have hPlace := h.keeps.place hOrigin (h.size.symm ▸ hRow) (h.size.symm ▸ hColumn)
  rw [h.size] at hPlace
  exact hPlace

/-- Data behind which the square is still that of memory has spared it. -/
theorem spares_of_shows {c : Call} (h : s.ShowsSquare size)
    (hNext : (s.call c).ShowsSquare size) : s.Spares size c := by
  cases c with
  | tick => exact trivial
  | preload addr words =>
      intro o hOrigin i hRow j hColumn
      exact Option.some.inj ((hNext o hOrigin i hRow j hColumn).symm.trans
        (h o hOrigin i hRow j hColumn))

theorem callAll_snoc (s : Simulator) (calls : List Call) (c : Call) :
    s.callAll (calls ++ [c]) = (s.callAll calls).call c :=
  List.foldl_concat _ _ _ _

/-- As long as all data spares it, the square is current. -/
theorem current_callAll {calls : List Call} (h : s.pipeline.Current size)
    (hSpares : ∀ done c, done ++ [c] <+: calls → (s.callAll done).Spares size c) :
    (s.callAll calls).pipeline.Current size := by
  induction calls using List.reverseRecOn with
  | nil => exact h
  | append_singleton calls c ih =>
      rw [callAll_snoc]
      refine current_call (ih fun done c' hPrefix => ?_) (hSpares calls c (List.prefix_refl _))
      exact hSpares done c' (hPrefix.trans (List.prefix_append _ _))

/-- Through ticks and data in any order, the square that the convolution unit keeps stays that of
memory exactly if all data, at the time when it is loaded, leaves the words in its place as they
are. No tick makes it stale. -/
theorem shows_square_iff {c : Config} (h : c.Valid) (program : Image) (calls : List Call) :
    (∀ done, done <+: calls →
        ((loaded c program []).callAll done).ShowsSquare c.kernelSize) ↔
      ∀ done call, done ++ [call] <+: calls →
        ((loaded c program []).callAll done).Spares c.kernelSize call := by
  constructor
  · intro hShows done call hPrefix
    refine spares_of_shows (hShows done ((List.prefix_append _ _).trans hPrefix)) ?_
    rw [← callAll_snoc]
    exact hShows _ hPrefix
  · intro hSpares done hPrefix
    refine shows_of_current (current_callAll ?_ fun before call hBefore =>
      hSpares before call (hBefore.trans hPrefix))
    rw [loaded_pipeline]
    exact current_build h program

/-- A convolution over a square in a small memory, which has been read after three ticks. -/
def convolution : Image := #[0x8e, 0x73]

/-- Data that repeats the first word of the square. -/
theorem shows_square_of_same_word :
    Config.small.Valid ∧
      ∀ done, done <+: [.tick, .tick, .tick, .preload 0 [0]] →
        ((loaded .small convolution []).callAll done).ShowsSquare 3 := by
  refine ⟨Config.valid_small, (shows_square_iff Config.valid_small convolution _).mpr ?_⟩
  intro done call hPrefix
  cases call with
  | tick => exact trivial
  | preload addr words =>
      obtain ⟨rest, hPrefix⟩ := hPrefix
      obtain ⟨rfl, rfl, rfl⟩ : done = [.tick, .tick, .tick] ∧ addr = 0 ∧ words = [0] := by
        rcases done with _ | ⟨_, _ | ⟨_, _ | ⟨_, _ | ⟨_, _⟩⟩⟩⟩ <;> simp_all
      intro o hOrigin
      obtain rfl : o = ⟨0, 0⟩ := by
        have hKept : ((loaded .small convolution []).callAll
            [.tick, .tick, .tick]).pipeline.units.conv2d.origin = some ⟨0, 0⟩ := by decide +kernel
        exact Option.some.inj (hOrigin.symm.trans hKept)
      revert hOrigin
      decide +kernel

/-- Another word makes the square stale. -/
theorem not_shows_square_of_preload :
    ¬ ∀ c : Config, c.Valid → ∀ (program : Image) (calls : List Call),
      ((loaded c program []).callAll calls).ShowsSquare c.kernelSize := by
  intro h
  have hStale := h .small Config.valid_small convolution
    [.tick, .tick, .tick, .preload 0 [1]] ⟨0, 0⟩ (by decide +kernel) 0 (by decide) 0 (by decide)
  revert hStale
  decide +kernel

end Simulator

end AccelPipe
