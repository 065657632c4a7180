import ApiSurface.Proofs.TomlDates

/-! The numbers of TOML as they are written, and that the reader takes each for what it stands for. A
number does not begin like a date, so what the reader tries first does not matter. -/

namespace ApiSurface.Toml

open Scan

/-! ### Numbers -/

inductive Sign where
  | absent
  | plus
  | minus

namespace Sign

def text : Sign → List Char
  | absent => []
  | plus => ['+']
  | minus => ['-']

def negative : Sign → Bool
  | absent => false
  | plus => false
  | minus => true

end Sign

/-- The whole part of a number, which begins with a zero only if there is no other digit. -/
inductive Whole where
  | zero
  | groups (g : Groups Char.isDigit) (hg : g.text.head? ≠ some '0')

namespace Whole

def text : Whole → List Char
  | zero => ['0']
  | groups g _ => g.text

def digits : Whole → List Char
  | zero => ['0']
  | groups g _ => g.digits

end Whole

/-- The text does not go on with a digit or an underscore. -/
def NoDigit (rest : List Char) : Prop :=
  Stops Char.isDigit rest ∧ rest.head? ≠ some '_'

theorem Closed.noDigit {rest : List Char} (h : Closed rest) : NoDigit rest :=
  ⟨h.stops rfl, h.head_ne (by decide)⟩

theorem wholeDigits_text (w : Whole) {rest : List Char} (hrest : NoDigit rest) :
    wholeDigits (w.text ++ rest) = some (w.digits, rest) := by
  cases w with
  | zero => rfl
  | groups g hg =>
      have hread := digitGroups_text rfl g hrest.1 hrest.2 ((g.text ++ rest).length + 1) (by simp; omega)
      have hhead : (g.text ++ rest).head? ≠ some '0' := by
        obtain ⟨c, cs, htext, -⟩ := g.exists_text_eq_cons
        rw [htext] at hg ⊢
        exact hg
      rw [Whole.text, Whole.digits, wholeDigits, peek_bind, ← hread]
      refine congrFun (g := (do digitGroups Char.isDigit ((← get).length + 1) : Scan (List Char))) ?_ _
      split
      case h_1 heq => exact absurd heq hhead
      case h_2 => rfl

/-- The exponent of a number. -/
structure Exponent where
  upper : Bool
  sign : Sign
  size : Groups Char.isDigit

namespace Exponent

def text (e : Exponent) : List Char :=
  (if e.upper then 'E' else 'e') :: (e.sign.text ++ e.size.text)

def power (e : Exponent) : Int :=
  if e.sign.negative then -(digitsValue 10 e.size.digits : Int) else digitsValue 10 e.size.digits

end Exponent

theorem minus_text (s : Sign) {rest : List Char} (hminus : rest.head? ≠ some '-')
    (hplus : rest.head? ≠ some '+') : minus (s.text ++ rest) = some (s.negative, rest) := by
  cases s with
  | absent =>
      rw [Sign.text, List.nil_append, minus, bind_of_some (accept_of_ne hminus), if_neg Bool.false_ne_true,
        bind_of_some (accept_of_ne hplus)]
      rfl
  | plus => rfl
  | minus => rfl

theorem Groups.head_ne {p : Char → Bool} (g : Groups p) {c : Char} (hc : p c = false) (rest : List Char) :
    (g.text ++ rest).head? ≠ some c := by
  obtain ⟨d, cs, htext, hd⟩ := g.exists_text_eq_cons
  rw [htext]
  rintro heq
  cases heq
  rw [hd] at hc
  cases hc

theorem exponent_text (e : Exponent) {rest : List Char} (hrest : NoDigit rest) :
    exponent (e.sign.text ++ (e.size.text ++ rest)) = some (e.power, rest) := by
  have hread := digitGroups_text rfl e.size hrest.1 hrest.2 ((e.size.text ++ rest).length + 1)
    (by simp; omega)
  rw [exponent, bind_of_some (minus_text e.sign (e.size.head_ne rfl rest) (e.size.head_ne rfl rest)),
    get_bind, bind_of_some hread]
  rfl

theorem exponent?_text (e : Exponent) {rest : List Char} (hrest : NoDigit rest) :
    exponent? (e.text ++ rest) = some (some e.power, rest) := by
  have hread := exponent_text e hrest
  have hletter : (accept 'e' <||> accept 'E') (e.text ++ rest) =
      some (true, e.sign.text ++ (e.size.text ++ rest)) := by
    rw [Exponent.text, List.cons_append, List.append_assoc]
    cases e.upper with
    | false => rfl
    | true => rfl
  rw [exponent?, bind_of_some hletter, if_pos rfl, bind_of_some hread]
  rfl

theorem exponent?_none {rest : List Char} (hrest : Closed rest) : exponent? rest = some (none, rest) := by
  have hletter : (accept 'e' <||> accept 'E') rest = some (false, rest) :=
    (bind_of_some (accept_of_ne (hrest.head_ne (by decide))) _).trans
      (accept_of_ne (hrest.head_ne (by decide)))
  rw [exponent?, bind_of_some hletter]
  rfl

/-- What makes a number a floating one: a fraction, perhaps with an exponent, or an exponent alone. -/
inductive FloatTail where
  | fraction (f : Groups Char.isDigit) (e : Option Exponent)
  | exponent (e : Exponent)

def exponentText : Option Exponent → List Char
  | none => []
  | some e => e.text

def FloatTail.text : FloatTail → List Char
  | fraction f e => '.' :: (f.text ++ exponentText e)
  | exponent e => e.text

/-- The double that the number stands for. -/
def FloatTail.double (negative : Bool) (whole : List Char) : FloatTail → Double
  | fraction f e =>
    nearest negative (whole ++ f.digits) ((e.map Exponent.power).getD 0 - f.digits.length)
  | exponent e => nearest negative whole e.power

/-- A number without its sign. -/
inductive Magnitude where
  | whole (w : Whole)
  | floating (w : Whole) (t : FloatTail)
  | infinite
  | nan

namespace Magnitude

def text : Magnitude → List Char
  | whole w => w.text
  | floating w t => w.text ++ t.text
  | infinite => ['i', 'n', 'f']
  | nan => ['n', 'a', 'n']

/-- The integer of a whole number. -/
def integer (negative : Bool) (w : Whole) : Int :=
  if negative then -(digitsValue 10 w.digits : Int) else digitsValue 10 w.digits

/-- What the number stands for. -/
def value (negative : Bool) : Magnitude → Value
  | whole w => .integer (integer negative w)
  | floating w t => .floating (t.double negative w.digits)
  | infinite => .floating (.infinite negative)
  | nan => .floating .nan

/-- Integers have 64 bits. -/
def InRange (negative : Bool) : Magnitude → Prop
  | whole w => -Int.pow 2 63 ≤ integer negative w ∧ integer negative w < Int.pow 2 63
  | _ => True

/-- A number with a fraction or an exponent is not beyond the largest double. -/
def Finite (negative : Bool) : Magnitude → Prop
  | floating w t => t.double negative w.digits ≠ .infinite false
  | _ => True

end Magnitude

theorem Whole.exists_text_eq_cons (w : Whole) : ∃ c cs, w.text = c :: cs ∧ c.isDigit = true := by
  cases w with
  | zero => exact ⟨'0', [], rfl, rfl⟩
  | groups g hg => exact g.exists_text_eq_cons

theorem Whole.head_ne (w : Whole) {c : Char} (hc : c.isDigit = false) (rest : List Char) :
    (w.text ++ rest).head? ≠ some c := by
  cases w with
  | zero =>
      rintro heq
      cases heq
      cases hc
  | groups g hg => exact g.head_ne hc rest

/-- A number that begins with a digit is read from its whole part on. -/
theorem unsigned_whole (negative : Bool) (w : Whole) {rest : List Char} (hrest : NoDigit rest) :
    unsigned negative (w.text ++ rest) =
      (do
        if ← accept '.' then
          let fraction ← digitGroups Char.isDigit ((← get).length + 1)
          let power := (← exponent?).getD 0
          Toml.floating (nearest negative (w.digits ++ fraction) (power - fraction.length))
        else if let some power ← exponent? then
          Toml.floating (nearest negative w.digits power)
        else
          let size : Int := digitsValue 10 w.digits
          Toml.integer (if negative then -size else size) : Scan Value) rest := by
  rw [unsigned, bind_of_some (acceptText_of_head_ne rfl (w.head_ne rfl rest)), if_neg Bool.false_ne_true,
    bind_of_some (acceptText_of_head_ne rfl (w.head_ne rfl rest)), if_neg Bool.false_ne_true]
  exact bind_of_some (wholeDigits_text w hrest) _

theorem exponentText_noDigit (e : Option Exponent) {rest : List Char} (hrest : Closed rest) :
    NoDigit (exponentText e ++ rest) := by
  match e with
  | none => exact hrest.noDigit
  | some ⟨true, _, _⟩ => exact ⟨stops_cons.mpr rfl, by simp [exponentText, Exponent.text]⟩
  | some ⟨false, _, _⟩ => exact ⟨stops_cons.mpr rfl, by simp [exponentText, Exponent.text]⟩

theorem exponent?_exponentText (e : Option Exponent) {rest : List Char} (hrest : Closed rest) :
    exponent? (exponentText e ++ rest) = some (e.map Exponent.power, rest) := by
  cases e with
  | none => exact exponent?_none hrest
  | some e => exact exponent?_text e hrest.noDigit

theorem floating_of_ne {x : Double} (hx : x ≠ .infinite false) (cs : List Char) :
    floating x cs = some (.floating x, cs) := by
  rw [floating, if_neg hx]
  rfl

theorem integer_of_inRange {value : Int} (hvalue : -Int.pow 2 63 ≤ value ∧ value < Int.pow 2 63) (cs : List Char) :
    integer value cs = some (.integer value, cs) := by
  have hrange : (decide (-Int.pow 2 63 ≤ value) && decide (value < Int.pow 2 63)) = true := by
    rw [Bool.and_eq_true, decide_eq_true_eq, decide_eq_true_eq]
    exact hvalue
  rw [integer, if_pos hrange]
  rfl

/-- A number without its sign is read as what it stands for. -/
theorem unsigned_text (m : Magnitude) {negative : Bool} (hrange : m.InRange negative)
    (hfinite : m.Finite negative) {rest : List Char} (hrest : Closed rest) :
    unsigned negative (m.text ++ rest) = some (m.value negative, rest) := by
  have hpoint : rest.head? ≠ some '.' := hrest.head_ne (by decide)
  match m with
  | .whole w =>
      rw [Magnitude.text, unsigned_whole negative w hrest.noDigit, bind_of_some (accept_of_ne hpoint),
        if_neg Bool.false_ne_true, bind_of_some (exponent?_none hrest)]
      exact integer_of_inRange hrange rest
  | .floating w (.fraction f e) =>
      have hdigits := exponentText_noDigit e hrest
      have hfraction := digitGroups_text rfl f hdigits.1 hdigits.2
        ((f.text ++ (exponentText e ++ rest)).length + 1) (by simp; omega)
      have htext : (Magnitude.floating w (.fraction f e)).text ++ rest =
          w.text ++ '.' :: (f.text ++ (exponentText e ++ rest)) := by
        simp [Magnitude.text, FloatTail.text]
      rw [htext, unsigned_whole negative w ⟨stops_cons.mpr rfl, by simp⟩, bind_of_some (accept_self _ _),
        if_pos rfl, get_bind, bind_of_some hfraction, bind_of_some (exponent?_exponentText e hrest)]
      exact floating_of_ne hfinite rest
  | .floating w (.exponent e) =>
      have hdigits : NoDigit (e.text ++ rest) := exponentText_noDigit (some e) hrest
      have hpoint : (e.text ++ rest).head? ≠ some '.' := by
        cases hupper : e.upper <;> simp [Exponent.text, hupper]
      have htext : (Magnitude.floating w (.exponent e)).text ++ rest = w.text ++ (e.text ++ rest) := by
        simp [Magnitude.text, FloatTail.text]
      rw [htext, unsigned_whole negative w hdigits, bind_of_some (accept_of_ne hpoint),
        if_neg Bool.false_ne_true, bind_of_some (exponent?_text e hrest.noDigit)]
      exact floating_of_ne hfinite rest
  | .infinite => rfl
  | .nan => rfl

/-! ### Scalars -/

/-- The other bases in which integers are written. -/
inductive Base where
  | hexadecimal
  | octal
  | binary

namespace Base

def size : Base → Nat
  | hexadecimal => 16
  | octal => 8
  | binary => 2

def mark : Base → Char
  | hexadecimal => 'x'
  | octal => 'o'
  | binary => 'b'

end Base

/-- A number, a date or a time. -/
inductive Scalar where
  | number (s : Sign) (m : Magnitude) (hm : m.InRange s.negative)
  | based (b : Base) (g : Groups (isDigitIn b.size)) (hg : (digitsValue b.size g.digits : Int) < Int.pow 2 63)
  | date (d : Date)
  | time (t : Time)

namespace Scalar

def text : Scalar → List Char
  | number s m _ => s.text ++ m.text
  | based b g _ => '0' :: b.mark :: g.text
  | date d => d.text
  | time t => t.text

/-- What the scalar stands for. -/
def value : Scalar → Value
  | number s m _ => m.value s.negative
  | based b g _ => .integer (digitsValue b.size g.digits)
  | date _ => .date
  | time _ => .date

/-- A floating number is not beyond the largest double. -/
def Finite : Scalar → Prop
  | number s m _ => m.Finite s.negative
  | _ => True

end Scalar

/-- What follows the first digits of a whole part is an underscore or comes after it. -/
theorem Whole.head?_dropWhile (w : Whole) {rest : List Char} (hrest : Stops Char.isDigit rest) :
    ((w.text ++ rest).dropWhile Char.isDigit).head? = some '_' ∨
      ((w.text ++ rest).dropWhile Char.isDigit).head? = rest.head? := by
  have hdrop (cs : List Char) (hcs : ∀ c ∈ cs, c.isDigit = true) {tail : List Char}
      (htail : Stops Char.isDigit tail) : (cs ++ tail).dropWhile Char.isDigit = tail :=
    congrArg Prod.snd (Option.some.inj (takeWhile_append hcs htail))
  match w with
  | .zero => exact Or.inr (congrArg List.head? (hdrop ['0'] (List.forall_mem_singleton.mpr rfl) hrest))
  | .groups (.last r) _ => exact Or.inr (congrArg List.head? (hdrop r.1 r.2.2 hrest))
  | .groups (.more r g) _ =>
      left
      have htext : (r.1 ++ '_' :: g.text) ++ rest = r.1 ++ '_' :: (g.text ++ rest) := by simp
      change (((r.1 ++ '_' :: g.text) ++ rest).dropWhile Char.isDigit).head? = _
      rw [htext, hdrop r.1 r.2.2 (stops_cons.mpr rfl)]
      rfl

/-- What may come right after the first digits of a number. -/
theorem digitsThen_whole (count : Nat) (w : Whole) {mark : Char} (hdigit : mark.isDigit = false)
    (hmark : mark ≠ '_') {rest : List Char} (hrest : Stops Char.isDigit rest)
    (hhead : rest.head? ≠ some mark) : digitsThen count mark (w.text ++ rest) = false := by
  apply Bool.eq_false_iff.mpr
  intro h
  have hmarked := head?_dropWhile_of_digitsThen hdigit h
  rcases w.head?_dropWhile hrest with hunderscore | hrest'
  · rw [hmarked] at hunderscore
    cases hunderscore
    exact hmark rfl
  · exact hhead (hrest'.symm.trans hmarked)

/-- The text does not begin like a date, a time or an integer in another base. -/
def Plainly (cs : List Char) : Prop :=
  digitsThen 4 '-' cs = false ∧ digitsThen 2 ':' cs = false ∧
    ∀ b : Base, ¬['0', b.mark] <+: cs

theorem scalar_of_plainly {cs : List Char} (h : Plainly cs) :
    scalar cs = (do unsigned (← minus) : Scan Value) cs := by
  have hx : ¬"0x".toList <+: cs := h.2.2 .hexadecimal
  have ho : ¬"0o".toList <+: cs := h.2.2 .octal
  have hb : ¬"0b".toList <+: cs := h.2.2 .binary
  rw [scalar, get_bind, h.1, h.2.1, if_neg Bool.false_ne_true, if_neg Bool.false_ne_true,
    bind_of_some (acceptText_of_not hx), if_neg Bool.false_ne_true,
    bind_of_some (acceptText_of_not ho), if_neg Bool.false_ne_true,
    bind_of_some (acceptText_of_not hb), if_neg Bool.false_ne_true]

theorem plainly_of_not_isDigit {c : Char} (hc : c.isDigit = false) (cs : List Char) : Plainly (c :: cs) := by
  refine ⟨digitsThen_of_not_isDigit hc, digitsThen_of_not_isDigit hc, fun b => ?_⟩
  rintro ⟨tail, heq⟩
  cases heq
  cases hc

/-- What may follow a whole part without making it something else. -/
theorem plainly_whole (w : Whole) {rest : List Char} (hrest : Stops Char.isDigit rest)
    (hmarks : Stops ['-', ':', 'x', 'o', 'b'].contains rest) : Plainly (w.text ++ rest) := by
  have hne {c : Char} (hc : c ∈ ['-', ':', 'x', 'o', 'b']) : rest.head? ≠ some c := fun heq => by
    have hstop := hmarks c heq
    rw [List.contains_iff_mem.mpr hc] at hstop
    cases hstop
  refine ⟨digitsThen_whole 4 w rfl (by decide) hrest (hne (by decide)),
    digitsThen_whole 2 w rfl (by decide) hrest (hne (by decide)), fun b => ?_⟩
  rintro ⟨tail, heq⟩
  cases w with
  | zero =>
      have htail : b.mark :: tail = rest := (List.cons.inj heq).2
      have hmark : b.mark ∈ ['-', ':', 'x', 'o', 'b'] := by cases b <;> decide
      exact hne hmark (by rw [← htail]; rfl)
  | groups g hg =>
      obtain ⟨c, cs, htext, -⟩ := g.exists_text_eq_cons
      rw [Whole.text, htext] at heq
      rw [htext] at hg
      exact hg (congrArg some (List.cons.inj heq).1.symm)

theorem FloatTail.stops (t : FloatTail) {p : Char → Bool} (hp : ['.', 'e', 'E'].any p = false)
    (rest : List Char) : Stops p (t.text ++ rest) := by
  have hmark {c : Char} (hc : c ∈ ['.', 'e', 'E']) : p c = false :=
    Bool.eq_false_iff.mpr (List.any_eq_false.mp hp c hc)
  match t with
  | .fraction f e => exact stops_cons.mpr (hmark (by decide))
  | .exponent ⟨true, s, g⟩ => exact stops_cons.mpr (hmark (c := 'E') (by decide))
  | .exponent ⟨false, s, g⟩ => exact stops_cons.mpr (hmark (c := 'e') (by decide))

theorem plainly_magnitude (m : Magnitude) {rest : List Char} (hrest : Closed rest) :
    Plainly (m.text ++ rest) := by
  cases m with
  | whole w => exact plainly_whole w (hrest.stops rfl) (hrest.stops rfl)
  | floating w t =>
      rw [Magnitude.text, List.append_assoc]
      exact plainly_whole w (t.stops rfl rest) (t.stops rfl rest)
  | infinite => exact plainly_of_not_isDigit rfl _
  | nan => exact plainly_of_not_isDigit rfl _

theorem Magnitude.head_ne (m : Magnitude) {c : Char} (hdigit : c.isDigit = false) (hi : c ≠ 'i') (hn : c ≠ 'n')
    (rest : List Char) : (m.text ++ rest).head? ≠ some c := by
  cases m with
  | whole w => exact w.head_ne hdigit rest
  | floating w t =>
      rw [Magnitude.text, List.append_assoc]
      exact w.head_ne hdigit _
  | infinite => simpa [Magnitude.text] using hi.symm
  | nan => simpa [Magnitude.text] using hn.symm

theorem scalar_number (s : Sign) (m : Magnitude) {rest : List Char} (hrest : Closed rest) :
    scalar (s.text ++ (m.text ++ rest)) = unsigned s.negative (m.text ++ rest) := by
  have hplainly : Plainly (s.text ++ (m.text ++ rest)) := by
    cases s with
    | absent => exact plainly_magnitude m hrest
    | plus => exact plainly_of_not_isDigit rfl _
    | minus => exact plainly_of_not_isDigit rfl _
  have hsign := minus_text s (m.head_ne (c := '-') rfl (by decide) (by decide) rest)
    (m.head_ne (c := '+') rfl (by decide) (by decide) rest)
  rw [scalar_of_plainly hplainly, bind_of_some hsign]

theorem basedInteger_text (b : Base) (g : Groups (isDigitIn b.size)) (hg : (digitsValue b.size g.digits : Int) < Int.pow 2 63)
    {rest : List Char} (hrest : Closed rest) :
    basedInteger b.size (g.text ++ rest) = some (.integer (digitsValue b.size g.digits), rest) := by
  have hunderscore : isDigitIn b.size '_' = false := by cases b <;> rfl
  have hstops : Stops (isDigitIn b.size) rest := hrest.stops (by cases b <;> rfl)
  have hread := digitGroups_text hunderscore g hstops (hrest.head_ne (by decide))
    ((g.text ++ rest).length + 1) (by simp; omega)
  rw [basedInteger, get_bind, bind_of_some hread]
  have hnonneg : -Int.pow 2 63 ≤ (digitsValue b.size g.digits : Int) :=
    Int.le_trans (by decide : -Int.pow 2 63 ≤ 0) (Int.natCast_nonneg _)
  exact integer_of_inRange ⟨hnonneg, hg⟩ rest

theorem scalar_based (b : Base) (cs : List Char) : scalar ('0' :: b.mark :: cs) = basedInteger b.size cs := by
  have hdigit : b.mark.isDigit = false := by cases b <;> rfl
  have hdate : digitsThen 4 '-' ('0' :: b.mark :: cs) = false :=
    digitsThen_whole 4 .zero rfl (by decide) (stops_cons.mpr hdigit) (by cases b <;> simp [Base.mark])
  have htime : digitsThen 2 ':' ('0' :: b.mark :: cs) = false :=
    digitsThen_whole 2 .zero rfl (by decide) (stops_cons.mpr hdigit) (by cases b <;> simp [Base.mark])
  have hother {text : String} (htext : ¬text.toList <+: '0' :: b.mark :: cs) :
      acceptText text ('0' :: b.mark :: cs) = some (false, '0' :: b.mark :: cs) := acceptText_of_not htext
  rw [scalar, get_bind, hdate, htime, if_neg Bool.false_ne_true, if_neg Bool.false_ne_true]
  cases b with
  | hexadecimal =>
      have hown : acceptText "0x" ('0' :: Base.hexadecimal.mark :: cs) = some (true, cs) :=
        acceptText_append "0x" cs
      rw [bind_of_some hown, if_pos rfl, Base.size]
  | octal =>
      have hown : acceptText "0o" ('0' :: Base.octal.mark :: cs) = some (true, cs) :=
        acceptText_append "0o" cs
      rw [bind_of_some (hother (by rintro ⟨tail, heq⟩; cases heq)), if_neg Bool.false_ne_true,
        bind_of_some hown, if_pos rfl, Base.size]
  | binary =>
      have hown : acceptText "0b" ('0' :: Base.binary.mark :: cs) = some (true, cs) :=
        acceptText_append "0b" cs
      rw [bind_of_some (hother (by rintro ⟨tail, heq⟩; cases heq)), if_neg Bool.false_ne_true,
        bind_of_some (hother (by rintro ⟨tail, heq⟩; cases heq)), if_neg Bool.false_ne_true,
        bind_of_some hown, if_pos rfl, Base.size]

/-- Every scalar is read as what it stands for. -/
theorem scalar_text (s : Scalar) (hs : s.Finite) {rest : List Char} (hrest : Closed rest) :
    scalar (s.text ++ rest) = some (s.value, rest) := by
  cases s with
  | number s m hm =>
      rw [Scalar.text, List.append_assoc, scalar_number s m hrest]
      exact unsigned_text m hm hs hrest
  | based b g hg =>
      change scalar ('0' :: b.mark :: (g.text ++ rest)) = _
      rw [scalar_based]
      exact basedInteger_text b g hg hrest
  | date d =>
      have hdigits : digitsThen 4 '-' (d.text ++ rest) = true := by
        rw [Date.text, List.append_assoc, List.cons_append]
        exact digitsThen_fixed d.year '-' _
      rw [Scalar.text, scalar, get_bind, if_pos hdigits, bind_of_some (date_text d hrest)]
      rfl
  | time t =>
      have htext : t.text ++ rest = t.hour.digits ++ ':' :: (t.minute.digits ++ ':' ::
          (t.second.digits ++ fractionText t.fraction) ++ rest) := by
        simp [Time.text]
      have htime : digitsThen 2 ':' (t.text ++ rest) = true := by
        rw [htext]
        exact digitsThen_fixed t.hour.toFixed ':' _
      have hdate : digitsThen 4 '-' (t.text ++ rest) = false := by
        apply Bool.eq_false_iff.mpr
        intro h
        have hmark := head?_dropWhile_of_digitsThen rfl h
        rw [htext, List.dropWhile_append_of_pos t.hour.isDigit] at hmark
        cases hmark
      rw [Scalar.text, scalar, get_bind, if_neg (by simp [hdate]), if_pos htime,
        bind_of_some (time_text t (hrest.head_ne (by decide)) (hrest.stops rfl))]
      rfl

end ApiSurface.Toml
