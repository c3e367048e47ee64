import AccelPipe.Proofs.Memory.Flat

/-! Data that is loaded before a run, in the banked memory and in a flat one. -/
namespace AccelPipe

/-- Writes a word into a flat memory, whose addresses wrap around at its size. -/
def pokeWord (size : Nat) (memory : Int → Int) (addr value : Int) : Int → Int := fun place =>
  if (place % size).toNat = (addr % size).toNat then s32 value else memory place

/-- Writes words to consecutive addresses. -/
def pokeWords (size : Nat) (memory : Int → Int) (addr : Int) : List Int → Int → Int
  | [] => memory
  | w :: ws => pokeWords size (pokeWord size memory addr w) (addr + 1) ws

/-- Writes all data, in the order in which it was given. -/
def pokeAll (size : Nat) (memory : Int → Int) (data : List (Int × List Int)) : Int → Int :=
  data.foldl (fun memory (addr, words) => pokeWords size memory addr words) memory

namespace Memory

/-- Loads all data, in the order in which it was given. -/
def loadAll (m : Memory) (data : List (Int × List Int)) : Memory :=
  data.foldl (fun m (addr, words) => m.load addr words) m

variable {m : Memory}

theorem loadAll_cons (m : Memory) (d : Int × List Int) (ds : List (Int × List Int)) :
    m.loadAll (d :: ds) = (m.load d.1 d.2).loadAll ds := rfl

theorem load_even (h : m.Even) (addr : Int) (words : List Int) : (m.load addr words).Even := by
  induction words generalizing m addr with
  | nil => exact h
  | cons w ws ih => exact ih (poke_even h addr w) (addr + 1)

theorem peek_load (h : m.Even) (addr : Int) (words : List Int) :
    (m.load addr words).peek = pokeWords m.size m.peek addr words := by
  induction words generalizing m addr with
  | nil => rfl
  | cons w ws ih =>
      have hPoke : (m.poke addr w).peek = pokeWord m.size m.peek addr w := by
        funext place
        exact peek_poke h addr w place
      change ((m.poke addr w).load (addr + 1) ws).peek = _
      rw [ih (poke_even h addr w), hPoke]
      rfl

theorem Sound.loadAll (h : m.Sound) (data : List (Int × List Int)) : (m.loadAll data).Sound := by
  induction data generalizing m with
  | nil => exact h
  | cons d ds ih => exact ih (h.load d.1 d.2)

theorem loadAll_size (m : Memory) (data : List (Int × List Int)) :
    (m.loadAll data).size = m.size := by
  induction data generalizing m with
  | nil => rfl
  | cons d ds ih => rw [loadAll_cons, ih, load_size]

theorem peek_loadAll (h : m.Even) (data : List (Int × List Int)) :
    (m.loadAll data).peek = pokeAll m.size m.peek data := by
  induction data generalizing m with
  | nil => rfl
  | cons d ds ih =>
      rw [loadAll_cons, ih (load_even h d.1 d.2), load_size, peek_load h]
      rfl

/-- The words at the start of a run, whatever the banks are. -/
theorem peek_loaded {c : Config} (hValid : c.Valid) (data : List (Int × List Int)) :
    ((fresh c).loadAll data).peek = pokeAll c.memWords (fun _ => 0) data := by
  rw [peek_loadAll (sound_fresh hValid).toEven, funext (peek_fresh c)]
  rfl

end Memory

end AccelPipe
