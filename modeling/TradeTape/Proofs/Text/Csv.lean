import TradeTape.Text.Csv

/-
  What is written as records is read as the same records.

  A reader that has taken some fields of a record takes one
  more written field into its state, whatever it holds, and
  then the comma or the line break behind it.

  Key statements include:
    * `Csv.parseFrom_quoted`
    * `Csv.parseFrom_joined`
    * `Csv.parseFrom_line`
    * `Csv.parseFrom_render`
    * `Csv.parse_render`
-/

namespace TradeTape

namespace Csv

------------------------------------------------------------
-- Fields
------------------------------------------------------------

/- A comma and a quote do not end a record. -/
theorem not_isBreak_comma : ¬IsBreak ',' := by
  decide

theorem not_isBreak_quote : ¬IsBreak '"' := by
  decide

theorem not_isSpecial_iff
    {c : Char} :
    ¬IsSpecial c ↔ c ≠ ',' ∧ c ≠ '"' ∧ ¬IsBreak c := by
  unfold IsSpecial
  simp only [not_or, ne_eq]

/- Characters that stand for themselves, after the first one. -/
theorem parseFrom_plain
    {f : Field}
    (hPlain : ∀ c ∈ f, ¬IsSpecial c)
    (done : List Field)
    (current rest : List Char) :
    parseFrom { position := .plain, fields := done, current := current }
        (f ++ rest)
      = parseFrom
          { position := .plain
            fields := done
            current := f.reverse ++ current }
          rest := by
  induction f generalizing current with
  | nil => rfl
  | cons c f ih =>
      rcases List.forall_mem_cons.mp hPlain with ⟨hFirst, hOthers⟩
      rcases not_isSpecial_iff.mp hFirst with ⟨hComma, -, hBreak⟩
      rw [List.cons_append, parseFrom]
      simp only [Taken.step, Taken.outside, if_neg hBreak,
        if_neg hComma, Taken.push, Option.toList_none,
        List.nil_append]
      rw [ih hOthers]
      simp

/- Characters between quotes. -/
theorem parseFrom_doubled
    (f : Field)
    (done : List Field)
    (current rest : List Char) :
    parseFrom { position := .quotes, fields := done, current := current }
        (doubled f ++ rest)
      = parseFrom
          { position := .quotes
            fields := done
            current := f.reverse ++ current }
          rest := by
  induction f generalizing current with
  | nil => rfl
  | cons c f ih =>
      unfold doubled
      by_cases hQuote : c = '"'
      · rw [if_pos hQuote, List.cons_append, List.cons_append,
          parseFrom]
        simp only [Taken.step, if_true, Option.toList_none,
          List.nil_append]
        rw [parseFrom]
        simp only [Taken.step, if_true, Taken.push,
          Option.toList_none, List.nil_append]
        rw [ih, hQuote]
        simp
      · rw [if_neg hQuote, List.cons_append, parseFrom]
        simp only [Taken.step, if_neg hQuote, Taken.push,
          Option.toList_none, List.nil_append]
        rw [ih]
        simp

/-
  A written field at the start of a field.  Only an empty one
  leaves the reader where it was.
-/
theorem parseFrom_quoted
    {p : Position}
    (hStart : p = .record ∨ p = .field)
    (f : Field)
    (done : List Field)
    (rest : List Char) :
    ∃ q,
      (q = .plain ∨ q = .quoteSeen ∨ (q = p ∧ quoted f = []))
        ∧ parseFrom { position := p, fields := done, current := [] }
            (quoted f ++ rest)
          = parseFrom
              { position := q, fields := done, current := f.reverse }
              rest := by
  unfold quoted
  by_cases hSpecial : (f.any fun c => IsSpecial c) = true
  · rw [if_pos hSpecial]
    refine ⟨.quoteSeen, Or.inr (Or.inl rfl), ?_⟩
    have hOpen :
        parseFrom { position := p, fields := done, current := [] }
            ('"' :: (doubled f ++ ['"']) ++ rest)
          = parseFrom
              { position := .quotes, fields := done, current := [] }
              (doubled f ++ '"' :: rest) := by
      rw [List.cons_append, parseFrom, List.append_assoc]
      rcases hStart with rfl | rfl <;>
        simp [Taken.step, not_isBreak_quote]
    rw [hOpen, parseFrom_doubled, parseFrom]
    simp [Taken.step]
  · rw [if_neg hSpecial]
    have hPlain : ∀ c ∈ f, ¬IsSpecial c := by
      simpa using hSpecial
    cases f with
    | nil => exact ⟨p, Or.inr (Or.inr ⟨rfl, rfl⟩), rfl⟩
    | cons c f =>
        rcases List.forall_mem_cons.mp hPlain with
          ⟨hFirst, hOthers⟩
        rcases not_isSpecial_iff.mp hFirst with
          ⟨hComma, hQuote, hBreak⟩
        refine ⟨.plain, Or.inl rfl, ?_⟩
        have hOpen :
            parseFrom { position := p, fields := done, current := [] }
                (c :: f ++ rest)
              = parseFrom
                  { position := .plain, fields := done, current := [c] }
                  (f ++ rest) := by
          rw [List.cons_append, parseFrom]
          rcases hStart with rfl | rfl <;>
            simp [Taken.step, Taken.outside, Taken.push, hComma,
              hQuote, hBreak]
        rw [hOpen, parseFrom_plain hOthers, List.reverse_cons]

------------------------------------------------------------
-- Records
------------------------------------------------------------

/- The comma behind a field. -/
theorem parseFrom_comma
    {q : Position}
    (hOutside : q ≠ .quotes)
    (done : List Field)
    (f rest : List Char) :
    parseFrom
        { position := q, fields := done, current := f.reverse }
        (',' :: rest)
      = parseFrom
          { position := .field, fields := f :: done, current := [] }
          rest := by
  rw [parseFrom]
  cases q with
  | quotes => exact absurd rfl hOutside
  | _ =>
      simp [Taken.step, Taken.outside, not_isBreak_comma, Taken.next]

/- The line break behind a field ends the record. -/
theorem parseFrom_break
    {q : Position}
    (hWithin : q = .plain ∨ q = .quoteSeen ∨ q = .field)
    (done : List Field)
    (f rest : List Char) :
    parseFrom
        { position := q, fields := done, current := f.reverse }
        ('\n' :: rest)
      = (done.reverse ++ [f]) :: parseFrom .start rest := by
  have hBreak : IsBreak '\n' := Or.inl rfl
  rw [parseFrom]
  rcases hWithin with rfl | rfl | rfl <;>
    simp [Taken.step, Taken.outside, hBreak, Taken.close]

/-
  The fields that are left of a record.  The induction is on
  the fields; the first one is the only one that may stand at
  the start of the record.
-/
theorem parseFrom_joined
    {p : Position}
    {fs : List Field}
    (hStart : (p = .record ∧ joined fs ≠ []) ∨ p = .field)
    (hFields : fs ≠ [])
    (done : List Field)
    (rest : List Char) :
    parseFrom { position := p, fields := done, current := [] }
        (joined fs ++ '\n' :: rest)
      = (done.reverse ++ fs) :: parseFrom .start rest := by
  induction fs generalizing p done with
  | nil => exact absurd rfl hFields
  | cons f fs ih =>
      have hPlace : p = .record ∨ p = .field := hStart.imp_left And.left
      cases fs with
      | nil =>
          rcases parseFrom_quoted hPlace f done ('\n' :: rest) with
            ⟨q, hPosition, hRead⟩
          have hWithin : q = .plain ∨ q = .quoteSeen ∨ q = .field := by
            rcases hPosition with hPlain | hSeen | ⟨hSame, hEmpty⟩
            · exact Or.inl hPlain
            · exact Or.inr (Or.inl hSeen)
            · rcases hStart with ⟨-, hSome⟩ | hField
              · exact absurd hEmpty hSome
              · exact Or.inr (Or.inr (hSame.trans hField))
          unfold joined
          rw [hRead, parseFrom_break hWithin]
      | cons g fs =>
          rcases
            parseFrom_quoted hPlace f done
              (',' :: (joined (g :: fs) ++ '\n' :: rest)) with
            ⟨q, hPosition, hRead⟩
          have hOutside : q ≠ .quotes := by
            rintro rfl
            rcases hPosition with h | h | ⟨rfl, -⟩
            · cases h
            · cases h
            · rcases hPlace with h | h <;> cases h
          have hText :
              joined (f :: g :: fs) ++ '\n' :: rest
                = quoted f
                  ++ ',' :: (joined (g :: fs) ++ '\n' :: rest) := by
            rw [joined, List.append_assoc, List.cons_append]
            exact List.cons_ne_nil _ _
          rw [hText, hRead, parseFrom_comma hOutside,
            ih (Or.inr rfl) (List.cons_ne_nil _ _), List.reverse_cons,
            List.append_assoc]
          rfl

theorem quoted_eq_nil_iff
    {f : Field} :
    quoted f = [] ↔ f = [] := by
  unfold quoted
  split
  · rename_i hSpecial
    refine ⟨fun h => (nomatch h), ?_⟩
    rintro rfl
    cases hSpecial
  · exact Iff.rfl

/-
  Only a record of one empty field is joined without a
  character.
-/
theorem eq_of_joined_eq_nil
    {fs : List Field}
    (hFields : fs ≠ [])
    (hEmpty : joined fs = []) :
    fs = [[]] := by
  cases fs with
  | nil => exact absurd rfl hFields
  | cons f fs =>
      cases fs with
      | nil => rw [quoted_eq_nil_iff.mp hEmpty]
      | cons g fs =>
          rw [joined] at hEmpty
          · simp at hEmpty
          · exact List.cons_ne_nil _ _

/- A written record with at least one field. -/
theorem parseFrom_line
    {fs : List Field}
    (hFields : fs ≠ [])
    (rest : List Char) :
    parseFrom .start (line fs ++ rest)
      = fs :: parseFrom .start rest := by
  unfold line
  by_cases hEmpty : joined fs = []
  · rw [eq_of_joined_eq_nil hFields hEmpty]
    rfl
  · simp only [if_neg hEmpty]
    rw [List.append_assoc]
    exact
      parseFrom_joined (p := .record) (Or.inl ⟨rfl, hEmpty⟩) hFields []
        rest

theorem parseFrom_render
    {records : List (List Field)}
    (hFields : ∀ r ∈ records, r ≠ []) :
    parseFrom .start (render records) = records := by
  induction records with
  | nil => rfl
  | cons r records ih =>
      rcases List.forall_mem_cons.mp hFields with ⟨hFirst, hOthers⟩
      unfold render
      rw [List.flatMap_cons, parseFrom_line hFirst]
      exact congrArg _ (ih hOthers)

/-
  Records with at least one field each are read as they were
  written, unless they begin with a mark of the byte order.
-/
theorem parse_render
    {records : List (List Field)}
    (hFields : ∀ r ∈ records, r ≠ [])
    (hUnmarked : (render records).head? ≠ some '\uFEFF') :
    parse (render records) = records := by
  have hBare : unmarked (render records) = render records := by
    unfold unmarked
    split
    · rename_i rest hMarked
      rw [hMarked] at hUnmarked
      exact absurd rfl hUnmarked
    · rfl
  unfold parse
  rw [hBare, parseFrom_render hFields]

end Csv

end TradeTape
