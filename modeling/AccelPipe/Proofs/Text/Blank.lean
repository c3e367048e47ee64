import AccelPipe.Text.Blank

/-! Text without blanks at its ends is not changed by cutting them off. -/
namespace AccelPipe.Text

variable {text : List Char}

theorem dropWhile_of_head {p : Char → Bool} (h : ∀ c ∈ text.head?, p c = false) :
    text.dropWhile p = text := by
  cases text with
  | nil => rfl
  | cons c rest => exact List.dropWhile_cons_of_neg (by simp [h c rfl])

/-- Nothing is cut off a text that neither begins nor ends with such a character. -/
theorem dropBoth_of_ends {p : Char → Bool} (hFirst : ∀ c ∈ text.head?, p c = false)
    (hLast : ∀ c ∈ text.getLast?, p c = false) :
    ((text.dropWhile p).reverse.dropWhile p).reverse = text := by
  rw [dropWhile_of_head hFirst, dropWhile_of_head, List.reverse_reverse]
  rwa [List.head?_reverse]

theorem trim_of_ends (hFirst : ∀ c ∈ text.head?, isBlank c = false)
    (hLast : ∀ c ∈ text.getLast?, isBlank c = false) : trim text = text :=
  dropBoth_of_ends hFirst hLast

theorem trim_of_solid (h : ∀ c ∈ text, isBlank c = false) : trim text = text :=
  trim_of_ends (fun c hFirst => h c (List.mem_of_head? hFirst))
    (fun c hLast => h c (List.mem_of_getLast? hLast))

end AccelPipe.Text
