import DependencyAudit.Proofs.Console.Table

/-!
Parts of cells in the rows of a table. A text without white space stands in the line of a row
only if it stands in one of its cells. So the rows of a table show parts of what stands in their
cells exactly if none of these is read as markup: of the parts that are, the longest has no place.
-/
namespace DependencyAudit.Console.Table
open Text

section Infixes
variable {x : Char} {p s front back before after : List Char} {cells texts : List (List Char)}
  {columns : List ShownColumn}

theorem infix_append_cons (h : p <:+: front ++ x :: back) (free : x ∉ p) :
    p <:+: front ∨ p <:+: back := by
  obtain ⟨u, v, same⟩ := h
  obtain ⟨rest, rfl, -⟩ | ⟨rest, split, same⟩ := List.append_eq_append_iff.1 same
  · exact .inl ⟨u, rest, rfl⟩
  · cases rest with
    | nil =>
        rw [List.append_nil] at split
        exact .inl ⟨u, [], by rw [List.append_nil, split]⟩
    | cons y rest =>
        cases same
        obtain ⟨w, -, inside⟩ | ⟨w, -, inside⟩ := List.append_eq_append_iff.1 split
        · exact absurd (inside ▸ List.mem_append_right w List.mem_cons_self) free
        · cases w with
          | nil =>
            rw [List.nil_append] at inside
            exact absurd (inside ▸ List.mem_cons_self) free
          | cons y w =>
              cases inside
              exact .inr ⟨w, v, rfl⟩

theorem eq_nil_of_infix_spaces (blank : ∀ c ∈ s, c = ' ') (free : ' ' ∉ p) (h : p <:+: s) :
    p = [] := by
  cases p with
  | nil => rfl
  | cons c p =>
      have space := blank c (h.subset List.mem_cons_self)
      exact absurd (space ▸ List.mem_cons_self) free

theorem infix_of_spaces (blank : ∀ c ∈ before ++ after, c = ' ') (free : ' ' ∉ p)
    (h : p <:+: before ++ s ++ after) : p <:+: s := by
  obtain ⟨early, late⟩ := List.forall_mem_append.1 blank
  have inner : p <:+: before ++ s := by
    cases after with
    | nil => rwa [List.append_nil] at h
    | cons c after =>
        obtain rfl := late c List.mem_cons_self
        obtain h | h := infix_append_cons h free
        · exact h
        · have space c (member : c ∈ after) := late c (List.mem_cons_of_mem _ member)
          rw [eq_nil_of_infix_spaces space free h]
          exact List.nil_infix
  obtain rfl | ⟨front, last, rfl⟩ := List.eq_nil_or_concat before
  · exact inner
  · rw [List.concat_eq_append] at early inner
    obtain ⟨spaces, space⟩ := List.forall_mem_append.1 early
    obtain rfl := space last List.mem_cons_self
    rw [List.append_assoc, List.singleton_append] at inner
    obtain h | h := infix_append_cons inner free
    · rw [eq_nil_of_infix_spaces spaces free h]
      exact List.nil_infix
    · exact h

theorem infix_cellLine {bar : Char} (free : ' ' ∉ p)
    (h : p <:+: (cells.flatMap fun cell => bar :: padded cell) ++ [bar]) :
    p <:+: [bar] ∨ ∃ cell ∈ cells, p <:+: cell := by
  induction cells with
  | nil => exact .inl h
  | cons cell cells ih =>
      have shape : ((cell :: cells).flatMap fun cell => bar :: padded cell) ++ [bar] =
          [bar] ++ ' ' :: (cell ++ ' ' :: ((cells.flatMap fun cell => bar :: padded cell) ++
            [bar])) := by
        simp [padded]
      rw [shape] at h
      obtain h | h := infix_append_cons h free
      · exact .inl h
      obtain h | h := infix_append_cons h free
      · exact .inr ⟨cell, List.mem_cons_self, h⟩
      obtain h | ⟨cell, member, h⟩ := ih h
      · exact .inl h
      · exact .inr ⟨cell, List.mem_cons_of_mem _ member, h⟩

/-- A text without spaces stands in the line of a row only if it stands in one of its texts. -/
theorem infix_line (nonempty : columns.zip texts ≠ []) (free : ' ' ∉ p)
    (h : p <:+: line columns texts) : p <:+: [rowLine] ∨ ∃ s ∈ texts, p <:+: s := by
  rw [line, cellLine_eq (by simpa using nonempty)] at h
  obtain h | ⟨_, member, h⟩ := infix_cellLine free h
  · exact .inl h
  · obtain ⟨⟨c, s⟩, pair, rfl⟩ := List.mem_map.1 member
    obtain ⟨before, after, filled, blank⟩ := filled_eq c s
    dsimp only at h
    rw [filled] at h
    exact .inr ⟨s, (List.of_mem_zip pair).2, infix_of_spaces blank free h⟩

theorem text_infix_line (same : texts.length = columns.length) (h : s ∈ texts) :
    s <:+: line columns texts := by
  have nonempty : columns.zip texts ≠ [] := by
    intro empty
    have zero := congrArg List.length empty
    have positive := List.length_pos_of_mem h
    rw [List.length_zip, List.length_nil] at zero
    omega
  obtain ⟨c, pair⟩ : ∃ c, (c, s) ∈ columns.zip texts := by
    obtain ⟨i, place, rfl⟩ := List.getElem_of_mem h
    exact ⟨columns[i], List.mem_iff_getElem.2 ⟨i, by rw [List.length_zip]; omega, List.getElem_zip⟩⟩
  obtain ⟨before, after, filled, -⟩ := filled_eq c s
  have cell : c.filled s ∈ (columns.zip texts).map fun x => x.1.filled x.2 :=
    List.mem_map.2 ⟨(c, s), pair, rfl⟩
  obtain ⟨front, back, cells⟩ := List.append_of_mem cell
  rw [line, cellLine_eq (by simpa using nonempty), cells, List.flatMap_append, List.flatMap_cons,
    filled, padded]
  refine ⟨(front.flatMap fun cell => rowLine :: padded cell) ++ rowLine :: ' ' :: before,
    after ++ [' '] ++ (back.flatMap fun cell => rowLine :: padded cell) ++ [rowLine], ?_⟩
  simp

end Infixes

/-- A cell that shows a text in which nothing is read as markup. -/
def Safe (emoji : Emoji) (cell : String) : Prop :=
  ∃ text, Markup.plain emoji cell = .ok text ∧ Settled text ∧ Markup.Unmarked text

/-- A row of cells with parts in it, each the whole of a cell, without white space and without the
code of an emoji. Any other cell is safe. -/
structure RowOf (emoji : Emoji) (parts cells : List String) : Prop where
  inside : ∀ p ∈ parts, p ∈ cells
  visible : ∀ p ∈ parts, ∀ c ∈ p.toList, isBlank c = false
  free : ∀ p ∈ parts, emoji.Free p.toList
  others : ∀ cell ∈ cells, cell ∈ parts ∨ Safe emoji cell

section Rows
variable {emoji : Emoji} {parts cells : List String} {columns : List ShownColumn}
  {texts : List (List Char)}

theorem RowOf.settled (row : RowOf emoji parts cells) {cell : String} {text : List Char}
    (member : cell ∈ cells) (shown : Markup.plain emoji cell = .ok text) : Settled text := by
  obtain part | ⟨other, plain, settled, -⟩ := row.others cell member
  · exact settled_of_visible fun c hc =>
      row.visible cell part c ((Markup.plain_sublist (row.free cell part) shown).subset hc)
  · cases plain.symm.trans shown
    exact settled

theorem RowOf.accepted (row : RowOf emoji parts cells)
    (unmarked : ∀ p ∈ parts, Markup.Unmarked p.toList) :
    ∀ cell ∈ cells, Markup.Accepted cell := by
  intro cell member
  obtain part | ⟨text, plain, -⟩ := row.others cell member
  · exact (unmarked cell part).accepted
  · exact Markup.accepted_of_plain plain

theorem unmarked_rowLine : Markup.Unmarked [rowLine] := Markup.unmarked_of_forall (by decide)

/-- A part that is read as markup has a place only in what a longer one shows. -/
theorem RowOf.longer (row : RowOf emoji parts cells) (shown : Shown emoji cells texts)
    (nonempty : columns.zip texts ≠ []) (stands : ∀ p ∈ parts, p.toList <:+: line columns texts)
    {p : String} (member : p ∈ parts) (marked : ¬ Markup.Unmarked p.toList) :
    ∃ q ∈ parts, ¬ Markup.Unmarked q.toList ∧ p.toList.length < q.toList.length := by
  have free : ' ' ∉ p.toList := fun space => absurd (row.visible p member _ space) (by decide)
  obtain h | ⟨text, inside, h⟩ := infix_line nonempty free (stands p member)
  · exact absurd (unmarked_rowLine.of_infix h) marked
  · obtain ⟨cell, hcell, plain⟩ := exists_of_mem_right shown inside
    obtain part | ⟨other, plain', -, unmarked⟩ := row.others cell hcell
    · by_cases unmarked : Markup.Unmarked cell.toList
      · cases plain.symm.trans (Markup.plain_of_unmarked (row.free cell part) unmarked)
        exact absurd (unmarked.of_infix h) marked
      · have shorter := Markup.length_plain_lt (row.free cell part) unmarked plain
        exact ⟨cell, part, unmarked, h.length_le.trans_lt shorter⟩
    · cases plain.symm.trans plain'
      exact absurd (unmarked.of_infix h) marked

/-- The line of a row shows all parts exactly if none of them is read as markup. -/
theorem RowOf.stands_iff (row : RowOf emoji parts cells) (shown : Shown emoji cells texts)
    (nonempty : columns ≠ []) (same : texts.length = columns.length) :
    (∀ p ∈ parts, p.toList <:+: line columns texts) ↔
      ∀ p ∈ parts, Markup.Unmarked p.toList := by
  constructor
  · intro stands p member
    by_contra marked
    have pairs : columns.zip texts ≠ [] := by
      intro empty
      have zero := congrArg List.length empty
      have positive := List.length_pos_iff.2 nonempty
      rw [List.length_zip, List.length_nil] at zero
      omega
    -- of finitely many parts none can be longer than all
    have grows : ∀ n, ∃ q ∈ parts, ¬ Markup.Unmarked q.toList ∧ n ≤ q.toList.length := by
      intro n
      induction n with
      | zero => exact ⟨p, member, marked, Nat.zero_le _⟩
      | succ n ih =>
          obtain ⟨q, hq, marked, least⟩ := ih
          obtain ⟨q', hq', marked', longer⟩ := row.longer shown pairs stands hq marked
          exact ⟨q', hq', marked', by omega⟩
    obtain ⟨q, hq, -, least⟩ := grows (addedUp (parts.map fun p => p.toList.length) + 1)
    have most := le_addedUp (List.mem_map_of_mem (f := fun p => p.toList.length) hq)
    omega
  · intro unmarked p member
    obtain ⟨text, inside, plain⟩ := exists_of_mem_left shown (row.inside p member)
    cases plain.symm.trans (Markup.plain_of_unmarked (row.free p member) (unmarked p member))
    exact text_infix_line same inside

theorem rows_stand_iff {parts rows : List (List String)} {texts : List (List (List Char))}
    (row : List.Forall₂ (RowOf emoji) parts rows)
    (shown : List.Forall₂ (Shown emoji) rows texts)
    (nonempty : columns ≠ []) (same : ∀ row ∈ texts, row.length = columns.length) :
    List.Forall₂ (fun ps row => ∀ p ∈ ps, p.toList <:+: line columns row) parts texts ↔
      ∀ ps ∈ parts, ∀ p ∈ ps, Markup.Unmarked p.toList := by
  induction row generalizing texts with
  | nil =>
      cases shown
      exact iff_of_true .nil nofun
  | cons first _ ih =>
      cases shown with
      | cons shown others =>
          obtain ⟨here, below⟩ := List.forall_mem_cons.1 same
          rw [List.forall₂_cons, List.forall_mem_cons, ih others below,
            first.stands_iff shown nonempty here]

end Rows

/-- A table that the console has room for is printed with all parts in its rows exactly if its
title can be shown and no part is read as markup. -/
theorem shows_iff {emoji : Emoji} {t : Table} {parts : List (List String)} (fits : t.Fits emoji)
    (nonempty : t.columns ≠ [])
    (headed : ∀ c ∈ t.columns, Markup.Accepted c.head)
    (shaped : ∀ row ∈ t.rows, row.length = t.columns.length)
    (rows : List.Forall₂ (RowOf emoji) parts t.rows) :
    (∃ text, t.text emoji = .ok text ∧ RowsShow parts text) ↔
      Markup.Accepted t.title ∧ ∀ ps ∈ parts, ∀ p ∈ ps, Markup.Unmarked p.toList := by
  have settled : ∀ row ∈ t.rows, ∀ cell ∈ row, ∀ text,
      Markup.plain emoji cell = .ok text → Settled text := by
    intro row member cell inside text shown
    obtain ⟨ps, -, rowStands⟩ := exists_of_mem_right rows member
    exact rowStands.settled inside shown
  have each {text : String} (h : t.text emoji = .ok text) :
      RowsShow parts text ↔ ∀ ps ∈ parts, ∀ p ∈ ps, Markup.Unmarked p.toList := by
    obtain ⟨columns, texts, columned, shown, same, read⟩ :=
      exists_tableRows fits nonempty shaped settled h
    rw [RowsShow, read, List.forall₂_map_right_iff]
    exact rows_stand_iff rows shown columned same
  constructor
  · rintro ⟨text, printed, stands⟩
    exact ⟨((exists_text_iff headed shaped).1 ⟨text, printed⟩).1, (each printed).1 stands⟩
  · rintro ⟨titled, unmarked⟩
    obtain ⟨text, printed⟩ := (exists_text_iff headed shaped).2 ⟨titled, fun row member => by
      obtain ⟨ps, hps, rowStands⟩ := exists_of_mem_right rows member
      exact rowStands.accepted (unmarked ps hps)⟩
    exact ⟨text, printed, (each printed).2 unmarked⟩

end DependencyAudit.Console.Table
