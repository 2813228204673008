import TradeTape.Number.Decimal
import TradeTape.Number.Literal
import TradeTape.Proofs.Text.Digits

/-
  Decimals as they are written, and what readers make of them.

  A decimal is written as its sign, the digits before the
  point and as many places as its scale.  All its digits
  together denote the coefficient.  A reader of decimals finds
  the same decimal again, a reader of binary numbers the one
  that is nearest to it, and a reader of integers finds one
  only in a decimal without places.

  Key statements include:
    * `Decimal.chars_eq`
    * `Decimal.readPositional?_chars`
    * `Decimal.read?_chars`
    * `Decimal.encoding?_chars`
    * `Decimal.int?_chars`
-/

namespace TradeTape

namespace Decimal

------------------------------------------------------------
-- Decimals within the format
------------------------------------------------------------

/- A coefficient of 96 bits and a scale of at most 28. -/
def Fits (d : Decimal) : Prop :=
  d.coefficient < coefficientLimit ∧ d.scale ≤ maxScale

instance (d : Decimal) : Decidable d.Fits := by
  unfold Fits
  infer_instance

/- The binary number nearest to a decimal. -/
def toBinary (d : Decimal) : Binary64 :=
  Binary64.ofScaled d.negative d.coefficient (-(d.scale : Int))

------------------------------------------------------------
-- Shape
------------------------------------------------------------

/- All the digits of a decimal: at least one before its places. -/
def figures (d : Decimal) : List Char :=
  Digits.padded (d.scale + 1) d.coefficient

/- The digits before the point. -/
def whole (d : Decimal) : List Char :=
  d.figures.take (d.figures.length - d.scale)

/- The digits after the point. -/
def places (d : Decimal) : List Char :=
  d.figures.drop (d.figures.length - d.scale)

/- A decimal as it is written, without its sign. -/
def body (d : Decimal) : List Char :=
  d.whole ++ if d.scale = 0 then [] else '.' :: d.places

theorem whole_append_places (d : Decimal) :
    d.whole ++ d.places = d.figures :=
  List.take_append_drop _ _

theorem scale_lt_length (d : Decimal) :
    d.scale < d.figures.length := by
  have hSome := List.length_pos_iff.mpr (Digits.ofNat_ne_nil d.coefficient)
  unfold figures Digits.padded
  simp only [List.length_append, List.length_replicate]
  omega

theorem length_places (d : Decimal) : d.places.length = d.scale := by
  have hLess := d.scale_lt_length
  unfold places
  rw [List.length_drop]
  omega

theorem whole_ne_nil (d : Decimal) : d.whole ≠ [] := by
  have hLess := d.scale_lt_length
  have hLength : d.whole.length = d.figures.length - d.scale := by
    unfold whole
    rw [List.length_take]
    omega
  exact List.length_pos_iff.mp (by omega)

theorem places_eq_nil_iff
    {d : Decimal} :
    d.places = [] ↔ d.scale = 0 := by
  rw [← List.length_eq_zero_iff, length_places]

theorem chars_eq (d : Decimal) :
    d.chars = (if d.negative then ['-'] else []) ++ d.body := by
  have hShape :
      d.chars
        = (if d.negative then ['-'] else []) ++ d.whole
          ++ (if d.places = [] then [] else '.' :: d.places) :=
    rfl
  rw [hShape]
  unfold body
  simp only [places_eq_nil_iff, List.append_assoc]

theorem isDigit_of_mem_figures
    {d : Decimal}
    {c : Char}
    (hMem : c ∈ d.figures) :
    Digits.IsDigit c :=
  Digits.isDigit_of_mem_padded hMem

theorem isDigit_of_mem_whole
    {d : Decimal}
    {c : Char}
    (hMem : c ∈ d.whole) :
    Digits.IsDigit c :=
  isDigit_of_mem_figures (List.mem_of_mem_take hMem)

theorem isDigit_of_mem_places
    {d : Decimal}
    {c : Char}
    (hMem : c ∈ d.places) :
    Digits.IsDigit c :=
  isDigit_of_mem_figures (List.mem_of_mem_drop hMem)

/- The digits of a decimal denote its coefficient. -/
theorem toNat_figures (d : Decimal) :
    Digits.toNat d.figures = d.coefficient :=
  Digits.toNat_padded _ _

/- What is written of a decimal first, after its sign. -/
theorem exists_body_eq_cons (d : Decimal) :
    ∃ c cs, d.body = c :: cs ∧ Digits.IsDigit c := by
  cases hWhole : d.whole with
  | nil => exact absurd hWhole d.whole_ne_nil
  | cons c cs =>
      have hMem : c ∈ d.whole := by
        rw [hWhole]
        exact List.mem_cons_self
      have hBody :
          d.body
            = c :: (cs ++ if d.scale = 0 then [] else '.' :: d.places) := by
        unfold body
        rw [hWhole, List.cons_append]
      exact ⟨c, _, hBody, isDigit_of_mem_whole hMem⟩

/- A decimal without places is written as its digits. -/
theorem body_of_scale_eq_zero
    {d : Decimal}
    (hWhole : d.scale = 0) :
    d.body = Digits.ofNat d.coefficient := by
  have hSome := List.length_pos_iff.mpr (Digits.ofNat_ne_nil d.coefficient)
  have hFill : d.scale + 1 - (Digits.ofNat d.coefficient).length = 0 := by
    omega
  have hAll := d.whole_append_places
  rw [places_eq_nil_iff.mpr hWhole, List.append_nil] at hAll
  unfold body
  rw [if_pos hWhole, List.append_nil, hAll]
  unfold figures Digits.padded
  simp only [hFill, List.replicate_zero, List.nil_append]

theorem chars_ne_nil (d : Decimal) : d.chars ≠ [] := by
  rcases d.exists_body_eq_cons with ⟨c, cs, hBody, -⟩
  rw [chars_eq, hBody]
  simp

------------------------------------------------------------
-- Reading decimals
------------------------------------------------------------

theorem le_ofDigitChars
    (cs : List Char)
    (n : Nat) :
    n ≤ Nat.ofDigitChars 10 cs n := by
  have hOne : 1 ≤ 10 ^ cs.length := Nat.one_le_pow _ _ (by decide)
  calc
    n = 1 * n := (Nat.one_mul n).symm
    _ ≤ 10 ^ cs.length * n := Nat.mul_le_mul_right n hOne
    _ ≤ 10 ^ cs.length * n + Nat.ofDigitChars 10 cs 0 :=
        Nat.le_add_right _ _
    _ = Nat.ofDigitChars 10 cs n :=
        Nat.ofDigitChars_eq_ofDigitChars_zero.symm

/- Digits that find room, before the point or after it. -/
theorem scan_digits
    {ds : List Char}
    {coefficient scale : Nat}
    {point : Bool}
    (hDigits : ∀ c ∈ ds, Digits.IsDigit c)
    (hPoint : point = false → scale = 0)
    (hPlaces : scale + (if point then ds.length else 0) ≤ maxScale)
    (hRoom : Nat.ofDigitChars 10 ds coefficient < coefficientLimit)
    (negative seen : Bool)
    (rest : List Char) :
    scan
        { negative := negative
          coefficient := coefficient
          scale := scale
          point := point
          digits := seen }
        (ds ++ rest)
      = scan
          { negative := negative
            coefficient := Nat.ofDigitChars 10 ds coefficient
            scale := scale + (if point then ds.length else 0)
            point := point
            digits := seen || !ds.isEmpty }
          rest := by
  induction ds generalizing coefficient scale seen with
  | nil => simp
  | cons c ds ih =>
      rcases List.forall_mem_cons.mp hDigits with ⟨hDigit, hOthers⟩
      have hStep :
          Nat.ofDigitChars 10 (c :: ds) coefficient
            = Nat.ofDigitChars 10 ds
                (coefficient * 10 + Digits.value c) := by
        rw [Nat.ofDigitChars_cons, Nat.mul_comm 10]
        rfl
      have hFew : ¬maxScale ≤ scale := by
        cases point with
        | false =>
            rw [hPoint rfl]
            decide
        | true =>
            simp only [if_true, List.length_cons] at hPlaces
            omega
      have hNext : coefficient * 10 + Digits.value c < coefficientLimit := by
        rw [hStep] at hRoom
        exact lt_of_le_of_lt (le_ofDigitChars ds _) hRoom
      rw [hStep] at hRoom ⊢
      rw [List.cons_append, scan]
      simp only [if_neg hFew, if_pos hDigit, if_pos hNext]
      cases point with
      | false =>
          have hZero := hPoint rfl
          simp only [Bool.false_eq_true, if_false] at hPlaces ⊢
          rw [ih hOthers (fun _ => rfl) (by simp) hRoom]
          simp [hZero]
      | true =>
          simp only [if_true, List.length_cons] at hPlaces ⊢
          rw [ih hOthers (fun h => (nomatch h)) (by simp; omega) hRoom]
          simp only [if_true, List.isEmpty_cons, Bool.not_false,
            Bool.true_or, Bool.or_true]
          congr 2
          omega

/- A decimal is read after its sign, places and all. -/
theorem scan_body
    {d : Decimal}
    (hFits : d.Fits)
    (negative : Bool) :
    scan
        { negative := negative
          coefficient := 0
          scale := 0
          point := false
          digits := false }
        d.body
      = some (make negative d.coefficient d.scale) := by
  rcases hFits with ⟨hCoefficient, hScale⟩
  have hAll :
      Nat.ofDigitChars 10 d.places (Nat.ofDigitChars 10 d.whole 0)
        = d.coefficient := by
    rw [← Nat.ofDigitChars_append, whole_append_places,
      ← Digits.toNat_eq, toNat_figures]
  have hWhole : Nat.ofDigitChars 10 d.whole 0 < coefficientLimit :=
    lt_of_le_of_lt (le_ofDigitChars d.places _) (by rwa [hAll])
  have hSeen : (!d.whole.isEmpty) = true := by
    simp [d.whole_ne_nil]
  unfold body
  rw [scan_digits (fun c => isDigit_of_mem_whole) (fun _ => rfl)
    (by simp) hWhole, hSeen]
  by_cases hNone : d.scale = 0
  · rw [places_eq_nil_iff.mpr hNone, Nat.ofDigitChars_nil] at hAll
    simp [hNone, scan, hAll]
  · have hPoint : ¬Digits.IsDigit '.' := by decide
    have hFew : ¬maxScale ≤ 0 := by decide
    rw [if_neg hNone, scan]
    simp only [if_neg hPoint, Bool.false_eq_true, if_false, Nat.add_zero,
      if_neg hFew, not_false_eq_true, and_self, if_true]
    have hPlaces :=
      @scan_digits d.places (Nat.ofDigitChars 10 d.whole 0) 0 true
        (fun c => isDigit_of_mem_places) (fun h => (nomatch h))
        (by simpa [length_places] using hScale) (by rwa [hAll])
        negative true []
    rw [List.append_nil, hAll] at hPlaces
    simpa [scan, length_places] using hPlaces

/- A decimal is read as it was written; zero loses its sign. -/
theorem readPositional?_chars
    {d : Decimal}
    (hFits : d.Fits) :
    readPositional? d.chars
      = some (make d.negative d.coefficient d.scale) := by
  rcases d.exists_body_eq_cons with ⟨c, cs, hBody, hDigit⟩
  rw [chars_eq]
  cases hSign : d.negative with
  | true =>
      exact scan_body hFits true
  | false =>
      have hScan := scan_body hFits false
      rw [hBody] at hScan ⊢
      simp only [Bool.false_eq_true, if_false, List.nil_append]
      unfold readPositional?
      split
      · rename_i hNil
        cases hNil
      · rename_i hMinus
        rw [(List.cons.inj hMinus).1] at hDigit
        exact absurd hDigit Digits.not_isDigit_minus
      · rename_i hPlus
        rw [(List.cons.inj hPlus).1] at hDigit
        exact absurd hDigit Digits.not_isDigit_plus
      · exact hScan

------------------------------------------------------------
-- Reading binary numbers
------------------------------------------------------------

/- No digit begins a word. -/
theorem word?_of_isDigit
    {c : Char}
    (hDigit : Digits.IsDigit c)
    (cs : List Char) :
    Binary64.word? (c :: cs) = none := by
  have hLower : c.toLower = c := by
    unfold Digits.IsDigit at hDigit
    unfold Char.toLower
    rw [dif_neg]
    intro hUpper
    have hGreatest := hDigit.2
    rw [Char.le_def] at hGreatest
    exact absurd (UInt32.le_trans hUpper.1 hGreatest) (by decide)
  have hFirst
      (d : Char)
      (ds : List Char)
      (hWord :
        String.ofList ((c :: cs).map Char.toLower)
          = String.ofList (d :: ds)) :
      c = d := by
    have hList := String.ofList_injective hWord
    rw [List.map_cons, hLower] at hList
    exact (List.cons.inj hList).1
  unfold Binary64.word?
  split
  · rename_i hWord
    rw [hFirst 'n' ['a', 'n'] hWord] at hDigit
    exact absurd hDigit (by decide)
  · rename_i hWord
    rw [hFirst 'i' ['n', 'f'] hWord] at hDigit
    exact absurd hDigit (by decide)
  · rename_i hWord
    rw [hFirst 'i' "nfinity".toList hWord] at hDigit
    exact absurd hDigit (by decide)
  · rfl

/- A magnitude with places or without them. -/
theorem magnitude?_body (d : Decimal) :
    Binary64.magnitude? d.body
      = some (Binary64.ofScaledAny d.coefficient (-(d.scale : Int))) := by
  have hAll := d.toNat_figures
  rw [← whole_append_places] at hAll
  unfold Binary64.magnitude? body
  by_cases hNone : d.scale = 0
  · have hSpan :=
      Digits.span_digits (fun c => d.isDigit_of_mem_whole) [] (by simp)
    rw [List.append_nil] at hSpan
    rw [places_eq_nil_iff.mpr hNone, List.append_nil] at hAll
    simp [hNone, hSpan, d.whole_ne_nil, Binary64.exponent?, hAll]
  · have hSpan :=
      Digits.span_digits (fun c => d.isDigit_of_mem_whole)
        ('.' :: d.places) (by simp; decide)
    have hPlaces :=
      Digits.span_digits (fun c => d.isDigit_of_mem_places) [] (by simp)
    rw [List.append_nil] at hPlaces
    simp [hNone, hSpan, hPlaces, d.whole_ne_nil, Binary64.exponent?, hAll,
      length_places]

theorem neg_round
    (num den : Nat) :
    Binary64.neg (Binary64.round false num den)
      = Binary64.round true num den := by
  unfold Binary64.round
  split
  · rfl
  · dsimp only
    split <;> dsimp only <;> split <;> rfl

theorem round_ne_nan
    (negative : Bool)
    (num den : Nat) :
    Binary64.round negative num den ≠ .nan := by
  unfold Binary64.round
  split
  · exact fun h => (nomatch h)
  · dsimp only
    split <;> dsimp only <;> split <;> exact fun h => (nomatch h)

theorem neg_ofScaled
    (n : Nat)
    (exponent : Int) :
    Binary64.neg (Binary64.ofScaled false n exponent)
      = Binary64.ofScaled true n exponent := by
  unfold Binary64.ofScaled
  split <;> exact neg_round _ _

theorem toBinary_ne_nan (d : Decimal) : d.toBinary ≠ .nan := by
  unfold toBinary Binary64.ofScaled
  split <;> exact round_ne_nan _ _ _

/- A decimal is far from the ends of the binary format. -/
theorem ofScaledAny_eq
    {d : Decimal}
    (hFits : d.Fits) :
    Binary64.ofScaledAny d.coefficient (-(d.scale : Int))
      = Binary64.ofScaled false d.coefficient (-(d.scale : Int)) := by
  rcases hFits with ⟨hCoefficient, hScale⟩
  have hLength : (Digits.ofNat d.coefficient).length ≤ 29 := by
    rw [Digits.ofNat_eq,
      Nat.length_toDigits_le_iff (by decide) (by decide)]
    exact hCoefficient.trans (by decide)
  unfold maxScale at hScale
  unfold Binary64.ofScaledAny
  by_cases hZero : d.coefficient = 0
  · simp [hZero, Binary64.ofScaled, Binary64.round]
  · simp only [if_neg hZero]
    rw [if_neg (by omega), if_neg (by omega)]

/- The binary number that is read is the nearest one. -/
theorem read?_chars
    {d : Decimal}
    (hFits : d.Fits) :
    Binary64.read? d.chars = some d.toBinary := by
  rcases d.exists_body_eq_cons with ⟨c, cs, hBody, hDigit⟩
  have hUnsigned :
      Binary64.unsigned? d.body
        = some (Binary64.ofScaled false d.coefficient (-(d.scale : Int))) := by
    unfold Binary64.unsigned?
    rw [magnitude?_body, hBody, word?_of_isDigit hDigit,
      ofScaledAny_eq hFits]
  unfold toBinary
  rw [chars_eq]
  cases hSign : d.negative with
  | true =>
      have hRead :
          Binary64.read? ('-' :: d.body)
            = (Binary64.unsigned? d.body).map Binary64.neg :=
        rfl
      simp only [if_true, List.singleton_append]
      rw [hRead, hUnsigned, Option.map_some, neg_ofScaled]
  | false =>
      rw [hBody] at hUnsigned ⊢
      simp only [Bool.false_eq_true, if_false, List.nil_append]
      unfold Binary64.read?
      split
      · rename_i hMinus
        rw [(List.cons.inj hMinus).1] at hDigit
        exact absurd hDigit Digits.not_isDigit_minus
      · rename_i hPlus
        rw [(List.cons.inj hPlus).1] at hDigit
        exact absurd hDigit Digits.not_isDigit_plus
      · exact hUnsigned

theorem encoding?_chars
    {d : Decimal}
    (hFits : d.Fits) :
    Binary64.encoding? d.chars = some d.toBinary.toBits := by
  unfold Binary64.encoding?
  rw [read?_chars hFits, Option.map_some]
  simp only [d.toBinary_ne_nan, false_and, if_false]

------------------------------------------------------------
-- Reading integers
------------------------------------------------------------

/- Only a decimal without places is taken for an integer. -/
theorem int?_chars (d : Decimal) :
    Digits.int? d.chars
      = if d.scale = 0 then some d.signed else none := by
  rcases d.exists_body_eq_cons with ⟨c, cs, hBody, hDigit⟩
  have hNat :
      Digits.nat? d.body
        = if d.scale = 0 then some d.coefficient else none := by
    have hAll := d.toNat_figures
    rw [← whole_append_places] at hAll
    unfold body
    by_cases hNone : d.scale = 0
    · rw [places_eq_nil_iff.mpr hNone, List.append_nil] at hAll
      rw [if_pos hNone, if_pos hNone, List.append_nil,
        Digits.nat?_eq_some d.whole_ne_nil fun c => d.isDigit_of_mem_whole,
        hAll]
    · have hPoint : ¬Digits.IsDigit '.' := by decide
      rw [if_neg hNone, if_neg hNone]
      unfold Digits.nat?
      rw [if_neg]
      rintro ⟨-, hDigits⟩
      exact hPoint (by simpa using List.all_eq_true.mp hDigits '.' (by simp))
  rw [chars_eq]
  unfold signed
  cases hSign : d.negative with
  | true =>
      have hRead :
          Digits.int? ('-' :: d.body)
            = (Digits.nat? d.body).map fun n => -(n : Int) :=
        rfl
      simp only [if_true, List.singleton_append]
      rw [hRead, hNat]
      split <;> rfl
  | false =>
      simp only [Bool.false_eq_true, if_false, List.nil_append]
      rw [hBody, Digits.int?_of_isDigit hDigit, ← hBody, hNat]
      split <;> rfl

end Decimal

end TradeTape
