import AccelPipe.Assembly.Program
import AccelPipe.Proofs.Except

/-! A source whose layout is known. With no label set twice, the first pass walks through the items
and the second one gives every statement its words. -/
namespace AccelPipe.Assembly

/-- Items from an address on, with the labels that they set and the statements that they place. -/
inductive Laid : Int → List Item → Labels → List Placed → Prop
  | nil (pc : Int) : Laid pc [] [] []
  | label {pc : Int} {line : Nat} {name : List Char} {items : List Item} {labels : Labels}
      {placed : List Placed} (more : Laid pc items labels placed) :
      Laid pc (.label line name :: items) ((name, pc) :: labels) placed
  | statement {pc size : Int} {line : Nat} {text name rest : List Char} {items : List Item}
      {labels : Labels} {placed : List Placed} (parts : nameAndRest text = (name, rest))
      (room : sizeAt line name rest pc = .ok size) (more : Laid (pc + size) items labels placed) :
      Laid pc (.statement line text :: items) labels (⟨line, text, name, rest, pc, size⟩ :: placed)

/-- What is not a placement is as long as its text says, wherever it stands. -/
theorem sizeAt_of_statement {name : List Char} (h : isPlacement name = false) (line : Nat)
    (rest : List Char) (pc : Int) : sizeAt line name rest pc = .ok (statementSize name rest) :=
  if_neg (by simp [h])

theorem lookup_of_nodup {old labels : Labels} {name : List Char} {address : Int}
    (h : ((old ++ (name, address) :: labels).map (·.1)).Nodup) : old.lookup name = none := by
  rw [List.map_append] at h
  refine List.lookup_eq_none_iff.mpr fun entry hIn => ?_
  have hOther := (List.nodup_append.mp h).2.2 entry.1 (List.mem_map_of_mem hIn) name
    List.mem_cons_self
  simpa using Ne.symm hOther

theorem foldlM_of_laid {pc : Int} {items : List Item} {labels : Labels} {placed : List Placed}
    (h : Laid pc items labels placed) (old : Labels) (before : List Placed)
    (hNodup : ((old ++ labels).map (·.1)).Nodup) :
    ∃ finish, items.foldlM Layout.add ⟨old, before, pc⟩ =
      .ok ⟨old ++ labels, placed.reverse ++ before, finish⟩ := by
  induction h generalizing old before with
  | nil pc =>
      rw [List.append_nil]
      exact ⟨pc, rfl⟩
  | @label pc line name items labels placed _ ih =>
      have hAdd : Layout.add ⟨old, before, pc⟩ (.label line name) =
          .ok ⟨old ++ [(name, pc)], before, pc⟩ := by
        unfold Layout.add
        dsimp only
        rw [lookup_of_nodup hNodup]
        rfl
      rw [List.append_cons] at hNodup ⊢
      obtain ⟨finish, hRest⟩ := ih (old ++ [(name, pc)]) before hNodup
      exact ⟨finish, by rw [List.foldlM_cons, hAdd, ok_bind, hRest]⟩
  | @statement pc size line text name rest items labels placed hParts hRoom _ ih =>
      have hAdd : Layout.add ⟨old, before, pc⟩ (.statement line text) =
          .ok ⟨old, ⟨line, text, name, rest, pc, size⟩ :: before, pc + size⟩ := by
        unfold Layout.add
        dsimp only
        rw [hParts]
        dsimp only
        rw [hRoom]
        rfl
      obtain ⟨finish, hRest⟩ := ih old (⟨line, text, name, rest, pc, size⟩ :: before) hNodup
      refine ⟨finish, ?_⟩
      rw [List.foldlM_cons, hAdd, ok_bind, hRest, List.reverse_cons, List.append_assoc]
      rfl

/-- The second pass gives each statement its words. -/
theorem mapM_of_emits {labels : Labels} {placed : List Placed} {words : List (List Nat)}
    (h : List.Forall₂ (fun p ws => emit labels p = .ok ws) placed words) :
    ∃ statements, placed.mapM (fun p => (emit labels p).map (p, ·)) = .ok statements ∧
      statements.flatMap (·.2) = words.flatten := by
  induction h with
  | nil => exact ⟨[], rfl, rfl⟩
  | @cons p ws placed words hFirst _ ih =>
      obtain ⟨statements, hRest, hWords⟩ := ih
      refine ⟨(p, ws) :: statements, ?_, congrArg (ws ++ ·) hWords⟩
      rw [List.mapM_cons, hFirst, hRest]
      rfl

theorem layout_of_laid {base : Int} {items : List Item} {labels : Labels} {placed : List Placed}
    (h : Laid base items labels placed) (hNodup : (labels.map (·.1)).Nodup) :
    ∃ finish, layout base items = .ok ⟨labels, placed, finish⟩ := by
  obtain ⟨finish, hFold⟩ := foldlM_of_laid h [] [] hNodup
  refine ⟨finish, ?_⟩
  unfold layout
  rw [hFold, ok_bind, List.append_nil]
  dsimp only
  rw [List.reverse_reverse]
  rfl

/-- A source with a known layout is accepted if each of its statements has words. -/
theorem assemble_of_laid {source : List Char} {base : Int} {labels : Labels} {placed : List Placed}
    (h : Laid base (items source) labels placed) (hNodup : (labels.map (·.1)).Nodup)
    {words : List (List Nat)}
    (hWords : List.Forall₂ (fun p ws => emit labels p = .ok ws) placed words) :
    ∃ program, assemble source base = .ok program ∧ program.words = words.flatten := by
  obtain ⟨finish, hLayout⟩ := layout_of_laid h hNodup
  obtain ⟨statements, hStatements, hAll⟩ := mapM_of_emits hWords
  refine ⟨⟨labels, statements⟩, ?_, hAll⟩
  unfold assemble
  rw [hLayout, ok_bind, hStatements]
  rfl

end AccelPipe.Assembly
