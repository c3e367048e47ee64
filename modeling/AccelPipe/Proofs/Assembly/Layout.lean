import AccelPipe.Proofs.Assembly.Source
import AccelPipe.Proofs.Assembly.Statement

/-! Both passes of the assembler agree. The first pass settles where everything goes from the text
alone, and the words of the second pass come to lie there. -/
namespace AccelPipe

open Assembly

namespace Assembly

def Item.isStatement : Item → Bool
  | .label .. => false
  | .statement .. => true

/-- The line on which an item stands. -/
def Item.line : Item → Nat
  | .label line _ => line
  | .statement line _ => line

/-- The item that a placed statement has been. -/
def Placed.item (p : Placed) : Item := .statement p.line p.text

/-- The room that statements take. -/
def span (statements : List Placed) : Int := (statements.map (·.size)).sum

/-- Statements in a row take up the room of each. -/
theorem span_append (before after : List Placed) :
    span (before ++ after) = span before + span after := by
  unfold span
  rw [List.map_append, List.sum_append]

/-- They take up whole words. -/
theorem span_words {statements : List Placed} (h : ∀ p ∈ statements, p.Sized) :
    0 ≤ span statements ∧ span statements % 4 = 0 := by
  induction statements with
  | nil => exact ⟨Int.le_refl 0, rfl⟩
  | cons p rest ih =>
      obtain ⟨hPos, hWhole⟩ := (h p List.mem_cons_self).words
      obtain ⟨hRest, hWholeRest⟩ := ih fun q hIn => h q (List.mem_cons_of_mem p hIn)
      have hCons : span (p :: rest) = p.size + span rest := rfl
      omega

/-! One step of the first pass. -/

/-- A placement fills up to its target, and a statement is as long as its text says. -/
theorem sizeAt_ok {line : Nat} {name rest : List Char} {pc size : Int}
    (h : sizeAt line name rest pc = .ok size) :
    (isPlacement name = false ∧ size = statementSize name rest) ∨
      isPlacement name = true ∧ ∃ target, Text.readInteger (Text.trim rest) = .ok target ∧
        pc ≤ target ∧ target % 4 = 0 ∧ size = target - pc := by
  unfold sizeAt at h
  split at h
  · rename_i hPlaces
    split at h
    · cases h
    · rename_i target hTarget
      split at h
      · cases h
      · cases h
        exact .inr ⟨hPlaces, target, hTarget, by omega, by omega, rfl⟩
  · rename_i hPlaces
    exact .inl ⟨Bool.eq_false_iff.mpr hPlaces, (Except.ok.inj h).symm⟩

/-- A label is set, or a statement is placed, where the statements before it end. -/
theorem Layout.add_ok {l l' : Layout} {item : Item} (h : l.add item = .ok l') :
    (∃ line name, item = .label line name ∧ l.labels.lookup name = none ∧
      l' = { l with labels := l.labels ++ [(name, l.finish)] }) ∨
    ∃ p : Placed, item = p.item ∧ nameAndRest p.text = (p.name, p.rest) ∧ p.address = l.finish ∧
      sizeAt p.line p.name p.rest p.address = .ok p.size ∧
      l' = { l with statements := p :: l.statements, finish := l.finish + p.size } := by
  cases item with
  | label line name =>
      unfold Layout.add at h
      dsimp only at h
      split at h
      · cases h
      · rename_i hNew
        cases h
        exact .inl ⟨line, name, rfl, Option.not_isSome_iff_eq_none.mp hNew, rfl⟩
  | statement line text =>
      obtain ⟨size, hSize, h⟩ := bind_ok h
      cases h
      exact .inr ⟨⟨line, text, _, _, l.finish, size⟩, rfl, rfl, rfl, hSize, rfl⟩

/-- An error of the first pass is about a label or a placement. -/
structure Error.OfLayout (error : Error) (line : Nat) : Prop where
  line : error.line = line
  size : ∀ expected actual, error.cause ≠ .size expected actual
  room : ∀ lack, error.cause ≠ .noRoom lack

/-- A size that cannot be told is an error of that line. -/
theorem sizeAt_error {line : Nat} {name rest : List Char} {pc : Int} {error : Error}
    (h : sizeAt line name rest pc = .error error) : error.OfLayout line := by
  unfold sizeAt at h
  split at h
  · split at h
    · cases h
      exact ⟨rfl, nofun, nofun⟩
    · split at h
      · cases h
        exact ⟨rfl, nofun, nofun⟩
      · cases h
  · cases h

/-- Items that cannot be laid out are errors of their lines. -/
theorem Layout.add_error {l : Layout} {item : Item} {error : Error}
    (h : l.add item = .error error) : error.OfLayout item.line := by
  cases item with
  | label line name =>
      unfold Layout.add at h
      dsimp only at h
      split at h
      · cases h
        exact ⟨rfl, nofun, nofun⟩
      · cases h
  | statement line text =>
      rcases bind_error h with hSize | ⟨size, -, h⟩
      · exact sizeAt_error hSize
      · cases h

/-- A layout that fails does so at one of the items. -/
theorem layout_error {base : Int} {items : List Item} {error : Error}
    (h : layout base items = .error error) : ∃ item ∈ items, error.OfLayout item.line := by
  rcases bind_error h with hFold | ⟨final, -, h⟩
  · obtain ⟨l, item, hIn, hAdd⟩ := foldlM_error hFold
    exact ⟨item, hIn, Layout.add_error hAdd⟩
  · cases h

/-- At an aligned address, a statement takes up whole words. -/
theorem sized_of_sizeAt {p : Placed} (hAligned : p.address % 4 = 0)
    (h : sizeAt p.line p.name p.rest p.address = .ok p.size) : p.Sized := by
  rcases sizeAt_ok h with ⟨hPlain, hSize⟩ | ⟨hPlaces, target, -, hNotBehind, hWhole, hSize⟩
  · exact ⟨fun _ => hSize, fun hPlaces => absurd (hPlain.symm.trans hPlaces) nofun⟩
  · exact ⟨fun hPlain => absurd (hPlain.symm.trans hPlaces) nofun, fun _ => by omega⟩

/-- An element of a list that has been extended is the new one or stands before it. -/
theorem snoc_eq_append_cons {α : Type} {xs before after : List α} {x y : α}
    (h : xs ++ [x] = before ++ y :: after) :
    (after = [] ∧ xs = before ∧ x = y) ∨
      ∃ rest, after = rest ++ [x] ∧ xs = before ++ y :: rest := by
  rcases List.eq_nil_or_concat after with rfl | ⟨rest, z, rfl⟩
  · obtain ⟨hBefore, hLast⟩ := List.append_singleton_inj.mp h
    exact .inl ⟨rfl, hBefore, hLast⟩
  · rw [List.concat_eq_append, ← List.cons_append, ← List.append_assoc] at h
    obtain ⟨hBefore, rfl⟩ := List.append_singleton_inj.mp h
    exact .inr ⟨rest, List.concat_eq_append, hBefore⟩

/-- What the first pass has made of some items: every statement and every label lies behind the
statements before it. -/
structure Layout.Covers (base : Int) (items : List Item) (l : Layout) : Prop where
  statements : l.statements.reverse.map Placed.item = items.filter Item.isStatement
  parts : ∀ p ∈ l.statements.reverse, nameAndRest p.text = (p.name, p.rest)
  sized : ∀ p ∈ l.statements.reverse, p.Sized
  finish : l.finish = base + span l.statements.reverse
  addresses : ∀ before p after, l.statements.reverse = before ++ p :: after →
    p.address = base + span before
  labels : ∀ before line name after, items = before ++ .label line name :: after →
    l.labels.lookup name =
      some (base + span (l.statements.reverse.take (before.countP Item.isStatement)))
  behind : ∀ entry ∈ l.labels, base ≤ entry.2

namespace Layout.Covers

variable {base : Int} {items : List Item} {l l' : Layout}

/-- A layout has one statement for every statement of the source. -/
theorem length (h : l.Covers base items) :
    l.statements.reverse.length = items.countP Item.isStatement := by
  rw [List.countP_eq_length_filter, ← h.statements, List.length_map]

/-- A label is set where the statements before it end. -/
theorem add_label (h : l.Covers base items) (line : Nat) {name : List Char}
    (hNew : l.labels.lookup name = none) :
    Covers base (items ++ [.label line name])
      { l with labels := l.labels ++ [(name, l.finish)] } := by
  have hSpan := (span_words h.sized).1
  refine ⟨?_, h.parts, h.sized, h.finish, h.addresses, ?_, ?_⟩
  · rw [List.filter_append, ← h.statements]
    exact (List.append_nil _).symm
  · intro before line' name' after hItems
    rw [List.lookup_append]
    rcases snoc_eq_append_cons hItems with ⟨-, rfl, hSame⟩ | ⟨rest, -, hBefore⟩
    · cases hSame
      rw [hNew, Option.none_or, ← h.length, List.take_length, ← h.finish]
      exact List.lookup_cons_self
    · rw [h.labels before line' name' rest hBefore, Option.some_or]
  · intro entry hIn
    rcases List.mem_append.mp hIn with hOld | hLast
    · exact h.behind entry hOld
    · rw [List.mem_singleton.mp hLast, h.finish]
      omega

/-- Another statement is laid out where the last one ends. -/
theorem add_statement (h : l.Covers base items) {p : Placed}
    (hParts : nameAndRest p.text = (p.name, p.rest)) (hSized : p.Sized)
    (hAddress : p.address = l.finish) :
    Covers base (items ++ [p.item])
      { l with statements := p :: l.statements, finish := l.finish + p.size } := by
  have hCount : ∀ {before : List Item} {line : Nat} {name : List Char} {rest : List Item},
      items = before ++ .label line name :: rest →
      before.countP Item.isStatement ≤ l.statements.reverse.length := by
    intro before line name rest hItems
    rw [h.length, hItems, List.countP_append]
    exact Nat.le_add_right _ _
  have hAll : ∀ {P : Placed → Prop}, (∀ q ∈ l.statements.reverse, P q) → P p →
      ∀ q ∈ (p :: l.statements).reverse, P q := by
    intro P hOld hNew q hIn
    rw [List.reverse_cons] at hIn
    rcases List.mem_append.mp hIn with hBefore | hLast
    · exact hOld q hBefore
    · rw [List.mem_singleton.mp hLast]
      exact hNew
  refine ⟨?_, hAll h.parts hParts, hAll h.sized hSized, ?_, ?_, ?_, h.behind⟩
  · rw [List.reverse_cons, List.map_append, h.statements, List.filter_append]
    rfl
  · rw [List.reverse_cons, span_append, ← Int.add_assoc, ← h.finish]
    exact congrArg (l.finish + ·) (Int.add_zero p.size).symm
  · intro before q after hStatements
    rw [List.reverse_cons] at hStatements
    rcases snoc_eq_append_cons hStatements with ⟨-, rfl, rfl⟩ | ⟨rest, -, hBefore⟩
    · rw [hAddress, h.finish]
    · exact h.addresses before q rest hBefore
  · intro before line name after hItems
    rcases snoc_eq_append_cons hItems with ⟨-, -, hNot⟩ | ⟨rest, -, hBefore⟩
    · cases hNot
    · rw [h.labels before line name rest hBefore, List.reverse_cons,
        List.take_append_of_le_length (hCount hBefore)]

/-- The first pass goes on with one more item. -/
theorem add (h : l.Covers base items) (hBase : base % 4 = 0) {item : Item}
    (hAdd : l.add item = .ok l') : l'.Covers base (items ++ [item]) := by
  rcases Layout.add_ok hAdd with ⟨line, name, rfl, hNew, rfl⟩ | ⟨p, rfl, hParts, hAddress, hSize, rfl⟩
  · exact h.add_label line hNew
  · have hSpan := (span_words h.sized).2
    have hFinish := h.finish
    exact h.add_statement hParts (sized_of_sizeAt (by omega) hSize) hAddress

/-- Items that are laid out one after the other are laid out in order. -/
theorem foldlM (h : l.Covers base items) (hBase : base % 4 = 0) {more : List Item}
    (hAll : more.foldlM Layout.add l = .ok l') : l'.Covers base (items ++ more) := by
  induction more generalizing l items with
  | nil =>
      cases hAll
      rw [List.append_nil]
      exact h
  | cons item more ih =>
      rw [List.foldlM_cons] at hAll
      obtain ⟨next, hAdd, hAll⟩ := bind_ok hAll
      rw [← List.singleton_append, ← List.append_assoc]
      exact ih (h.add hBase hAdd) hAll

end Layout.Covers

/-- The first pass as a whole. -/
theorem covers_of_layout {base : Int} (hBase : base % 4 = 0) {items : List Item} {l : Layout}
    (h : layout base items = .ok l) :
    Layout.Covers base items { l with statements := l.statements.reverse } := by
  obtain ⟨final, hFinal, h⟩ := bind_ok h
  cases h
  have hStart : Layout.Covers base [] ⟨[], [], base⟩ :=
    ⟨rfl, nofun, nofun, (Int.add_zero base).symm,
      fun before _ _ hNil => absurd hNil.symm (List.append_ne_nil_of_right_ne_nil before nofun),
      fun before _ _ _ hNil => absurd hNil.symm (List.append_ne_nil_of_right_ne_nil before nofun),
      nofun⟩
  have hAll := hStart.foldlM hBase hFinal
  dsimp only
  rw [List.reverse_reverse]
  exact hAll

/-! The second pass. -/

/-- The words of some statements. -/
def wordsOf (statements : List (Placed × List Nat)) : List Nat := statements.flatMap (·.2)

/-- Statements take up the words that they are emitted with. -/
theorem span_emitted {statements : List (Placed × List Nat)}
    (h : ∀ s ∈ statements, 4 * (s.2.length : Int) = s.1.size) :
    span (statements.map (·.1)) = 4 * (wordsOf statements).length := by
  induction statements with
  | nil => rfl
  | cons s rest ih =>
      have hFirst := h s List.mem_cons_self
      have hRest := ih fun q hIn => h q (List.mem_cons_of_mem s hIn)
      have hSpan : span ((s :: rest).map (·.1)) = s.1.size + span (rest.map (·.1)) := rfl
      have hWords : (wordsOf (s :: rest)).length = s.2.length + (wordsOf rest).length :=
        List.length_append
      omega

/-- Four bytes make a word. -/
theorem length_bytesOfWords (words : List Nat) : (bytesOfWords words).length = 4 * words.length := by
  induction words with
  | nil => rfl
  | cons w rest ih =>
      have hCons : bytesOfWords (w :: rest) = bytesOfWord w ++ bytesOfWords rest := rfl
      rw [hCons, List.length_append, ih, List.length_cons]
      change 4 + 4 * rest.length = _
      omega

/-- Every statement is emitted on its own, with the labels of the whole layout. -/
theorem emitted_of_mapM {labels : Labels} {placed : List Placed}
    {statements : List (Placed × List Nat)}
    (h : placed.mapM (fun p => (emit labels p).map (p, ·)) = .ok statements) :
    statements.map (·.1) = placed ∧ ∀ s ∈ statements, emit labels s.1 = .ok s.2 := by
  have hAll := mapM_ok h
  clear h
  induction hAll with
  | nil => exact ⟨rfl, nofun⟩
  | cons hFirst _ ih =>
      obtain ⟨words, hWords, rfl⟩ := map_ok hFirst
      refine ⟨congrArg _ ih.1, fun s hIn => ?_⟩
      rcases List.mem_cons.mp hIn with rfl | hRest
      · exact hWords
      · exact ih.2 s hRest

/-- An accepted source has a layout, and each of its statements has been given words. -/
theorem assemble_ok {source : List Char} {base : Int} {program : Program}
    (h : assemble source base = .ok program) :
    ∃ l, layout base (items source) = .ok l ∧ program.labels = l.labels ∧
      program.statements.map (·.1) = l.statements ∧
      ∀ s ∈ program.statements, emit program.labels s.1 = .ok s.2 := by
  obtain ⟨l, hLayout, h⟩ := bind_ok h
  obtain ⟨statements, hStatements, h⟩ := bind_ok h
  cases h
  obtain ⟨hPlaced, hEmitted⟩ := emitted_of_mapM hStatements
  exact ⟨l, hLayout, rfl, hPlaced, hEmitted⟩

/-- Any other source has none, or a statement without words. -/
theorem assemble_error {source : List Char} {base : Int} {error : Error}
    (h : assemble source base = .error error) :
    layout base (items source) = .error error ∨
      ∃ l, layout base (items source) = .ok l ∧
        ∃ p ∈ l.statements, emit l.labels p = .error error := by
  rcases bind_error h with hLayout | ⟨l, hLayout, h⟩
  · exact .inl hLayout
  · rcases bind_error h with hStatements | ⟨statements, -, h⟩
    · obtain ⟨p, hIn, hFails⟩ := mapM_error hStatements
      exact .inr ⟨l, hLayout, p, hIn, map_error hFails⟩
    · cases h

/-- Both passes agree about a program that has been made from some items. -/
structure Program.Agrees (program : Program) (base finish : Int) (items : List Item) : Prop where
  statements : program.statements.map (·.1.item) = items.filter Item.isStatement
  parts : ∀ s ∈ program.statements, nameAndRest s.1.text = (s.1.name, s.1.rest)
  /-- The image ends where the first pass has ended. -/
  length : ((bytesOfWords program.words).length : Int) = finish - base
  /-- A statement has been told the address where its words come to lie. -/
  addresses : ∀ before placed words after,
    program.statements = before ++ (placed, words) :: after →
    placed.address = base + 4 * (wordsOf before).length
  /-- A label stands for the address of the first word after it. -/
  labels : ∀ before line name after, items = before ++ .label line name :: after →
    program.labels.lookup name = some (base +
      4 * (wordsOf (program.statements.take (before.countP Item.isStatement))).length)
  /-- A branch or a jump to a label goes there, wherever the label has been defined. -/
  targets : ∀ placed words index token address, (placed, words) ∈ program.statements →
    targetIndex? (String.ofList placed.name) (operands placed.rest).length = some index →
    (operands placed.rest)[index]? = some token →
    program.labels.lookup (Text.trim token) = some address → address < 0x100000000 →
    ∃ w : Nat, words = [w] ∧ ∀ ops, ∃ taken,
      (Instruction.decode w).branch ops placed.address = .ok (taken, address.toNat)

end Assembly

/-- An address of 32 bits is not reduced. -/
theorem u32_of_range {v : Int} (hLow : 0 ≤ v) (hHigh : v < 0x100000000) : u32 v = v.toNat := by
  unfold u32
  rw [Int.emod_eq_of_lt hLow hHigh]

namespace Assembly

variable {base : Int} {labels : Labels} {placed : Placed} {words : List Nat}

/-- What has a target is neither a placement nor data. -/
theorem instruction_of_targetIndex? {name : List Char} {count index : Nat}
    (h : targetIndex? (String.ofList name) count = some index) :
    isPlacement name = false ∧ name ≠ ".word".toList := by
  constructor
  · apply Bool.eq_false_iff.mpr
    intro hPlaces
    rw [eq_of_beq hPlaces, String.ofList_toList] at h
    cases h
  · intro hData
    rw [hData, String.ofList_toList] at h
    cases h

/-- A statement whose target is a label goes to the address of the label. -/
theorem goesTo_label (hWords : emit labels placed = .ok words) {index : Nat}
    (hTarget : targetIndex? (String.ofList placed.name) (operands placed.rest).length = some index)
    {token : Token} (hToken : (operands placed.rest)[index]? = some token) {address : Int}
    (hLabel : labels.lookup (Text.trim token) = some address) (hLow : 0 ≤ address)
    (hHigh : address < 0x100000000) :
    ∃ w : Nat, words = [w] ∧ ∀ ops, ∃ taken,
      (Instruction.decode w).branch ops placed.address = .ok (taken, address.toNat) := by
  obtain ⟨hPlaces, hData⟩ := instruction_of_targetIndex? hTarget
  obtain ⟨offset, hOffset, w, hOne, hImm, hBranch⟩ :=
    goesBy_emitInstruction hTarget (emitInstruction_of_emit hPlaces hData hWords)
  have hDistance : offset = address - placed.address := by
    unfold Context.dist Context.examine Context.operand at hOffset
    dsimp only at hOffset
    rw [hToken] at hOffset
    have hRead := mapError_ok hOffset
    unfold distance at hRead
    rw [hLabel] at hRead
    exact (Except.ok.inj hRead).symm
  refine ⟨w, hOne, fun ops => ?_⟩
  obtain ⟨taken, hTaken⟩ := Instruction.branch_target hBranch ops placed.address
  rw [hImm, hDistance, add_sub_cancel, u32_of_range hLow hHigh] at hTaken
  exact ⟨taken, hTaken⟩

/-- The second pass keeps to what the first has laid out. -/
theorem Layout.Covers.agrees {items : List Item} {l : Layout} (h : l.Covers base items)
    (hBase : 0 ≤ base) {statements : List (Placed × List Nat)}
    (hPlaced : statements.map (·.1) = l.statements.reverse)
    (hEmitted : ∀ s ∈ statements, emit l.labels s.1 = .ok s.2) :
    Program.Agrees ⟨l.labels, statements⟩ base l.finish items := by
  have hMem : ∀ s ∈ statements, s.1 ∈ l.statements.reverse := by
    intro s hIn
    rw [← hPlaced]
    exact List.mem_map_of_mem hIn
  have hCount : ∀ s ∈ statements, 4 * (s.2.length : Int) = s.1.size := fun s hIn =>
    (h.sized s.1 (hMem s hIn)).emit_length (hEmitted s hIn)
  have hSpan : ∀ {some : List (Placed × List Nat)}, (∀ s ∈ some, s ∈ statements) →
      span (some.map (·.1)) = 4 * (wordsOf some).length := fun hSub =>
    span_emitted fun s hIn => hCount s (hSub s hIn)
  refine ⟨?_, fun s hIn => h.parts s.1 (hMem s hIn), ?_, ?_, ?_, ?_⟩
  · rw [← h.statements, ← hPlaced, List.map_map]
    rfl
  · rw [length_bytesOfWords, h.finish, ← hPlaced, hSpan fun _ hIn => hIn]
    change ((4 * (wordsOf statements).length : Nat) : Int) = _
    omega
  · intro before placed words after hStatements
    dsimp only at hStatements
    rw [← hSpan fun s hIn => hStatements ▸ List.mem_append_left _ hIn]
    apply h.addresses (before.map (·.1)) placed (after.map (·.1))
    rw [← hPlaced, hStatements, List.map_append, List.map_cons]
  · intro before line name after hItems
    rw [h.labels before line name after hItems, ← hPlaced, ← List.map_take,
      hSpan fun s hIn => List.mem_of_mem_take hIn]
  · intro placed words index token address hIn hTarget hToken hLabel hHigh
    obtain ⟨front, back, hSplit, -⟩ := List.lookup_eq_some_iff.mp hLabel
    dsimp only at hSplit
    have hLow : base ≤ address := h.behind (Text.trim token, address) (by simp [hSplit])
    exact goesTo_label (hEmitted _ hIn) hTarget hToken hLabel (by omega) hHigh

/-- In a layout at an aligned base all statements have their sizes. -/
theorem sized_of_layout {items : List Item} {l : Layout} (hAligned : base % 4 = 0)
    (h : layout base items = .ok l) : ∀ p ∈ l.statements, p.Sized := by
  have hSized := (covers_of_layout hAligned h).sized
  rwa [List.reverse_reverse] at hSized

/-- A program that is assembled agrees with the layout of its source. -/
theorem agrees_of_assemble {source : List Char} {program : Program} (hBase : 0 ≤ base)
    (hAligned : base % 4 = 0) (h : assemble source base = .ok program) :
    ∃ l, layout base (items source) = .ok l ∧ program.Agrees base l.finish (items source) := by
  obtain ⟨labels, statements⟩ := program
  obtain ⟨l, hLayout, hLabels, hPlaced, hEmitted⟩ := assemble_ok h
  obtain rfl : labels = l.labels := hLabels
  refine ⟨l, hLayout, (covers_of_layout hAligned hLayout).agrees hBase ?_ hEmitted⟩
  exact hPlaced.trans (List.reverse_reverse _).symm

/-- From a base address on that is a word boundary, the second pass never misses the layout of the
first. Whatever is accepted lies where its labels say. -/
theorem assemble_agrees (source : List Char) (hBase : 0 ≤ base) (hAligned : base % 4 = 0) :
    (∀ error, assemble source base = .error error →
      ∀ expected actual, error.cause ≠ .size expected actual) ∧
    ∀ program, assemble source base = .ok program →
      ∃ l, layout base (items source) = .ok l ∧
        program.Agrees base l.finish (items source) := by
  refine ⟨fun error h => ?_, fun program h => agrees_of_assemble hBase hAligned h⟩
  rcases assemble_error h with hLayout | ⟨l, hLayout, p, hIn, hFails⟩
  · obtain ⟨item, -, hError⟩ := layout_error hLayout
    exact hError.size
  · exact (sized_of_layout hAligned hLayout p hIn).emit_error hFails

/-- A branch forward and a jump back. -/
def thereAndBack : List Char := "back: beq a0, zero, end\nend: j back".toList

/-- Both labels stand in front of a branch or behind it, in one line with it. -/
theorem items_thereAndBack :
    items thereAndBack =
      [.label 1 "back".toList, .statement 1 "beq a0, zero, end".toList,
        .label 2 "end".toList, .statement 2 "j back".toList] := by
  have hLines : thereAndBack.splitOn '\n' =
      ["back: beq a0, zero, end".toList, "end: j back".toList] := by
    decide +kernel
  have hFirst : leadingLabel? (meaning "back: beq a0, zero, end".toList) =
      some ("back".toList, "beq a0, zero, end".toList) := by
    decide +kernel
  have hSecond : leadingLabel? (meaning "end: j back".toList) =
      some ("end".toList, "j back".toList) := by
    decide +kernel
  unfold items
  rw [hLines, itemsFrom, itemsFrom, itemsFrom, itemsOfText_label hFirst,
    itemsOfText_label hSecond, itemsOfText_of_no_colon 1 (by decide) (by decide),
    itemsOfText_of_no_colon _ (show ':' ∉ "j back".toList by decide) (by decide)]
  rfl

/-- A branch forward to a label and a jump back to another. -/
theorem assemble_agrees_of_thereAndBack :
    ∃ program, assemble thereAndBack 4 = .ok program ∧ program.words = [0x00050263, 0xffdff06f] ∧
      ∃ l, layout 4 (items thereAndBack) = .ok l ∧
        program.Agrees 4 l.finish (items thereAndBack) := by
  have hWords : (assemble thereAndBack 4).toOption.map (·.words) =
      some [0x00050263, 0xffdff06f] := by
    unfold assemble
    rw [items_thereAndBack]
    decide +kernel
  obtain ⟨program, hProgram, hIs⟩ := Option.map_eq_some_iff.mp hWords
  exact ⟨program, ok_of_toOption hProgram, hIs,
    (assemble_agrees thereAndBack (by decide) (by decide)).2 program (ok_of_toOption hProgram)⟩

end Assembly

end AccelPipe
