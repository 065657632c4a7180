import ApiSurface.Proofs.TomlTokens

/-! What may follow a value of TOML, and the dates and times that are values, as they are written: that
the reader takes each to its end. -/

namespace ApiSurface.Toml

open Scan

/-! ### What may follow a value -/

/-- The characters that may follow a value and the blanks after it. -/
def endMarks : List Char :=
  ['#', '\n', '\r', ',', ']', '\x7d']

/-- All characters that may stand right after a value. -/
def valueEnds : List Char :=
  ' ' :: '\t' :: endMarks

/-- The text goes on as it may after a value. -/
def Closed (rest : List Char) : Prop :=
  ∃ (b : Blanks) (tail : List Char), rest = b.1 ++ tail ∧ ∀ c ∈ tail.head?, c ∈ endMarks

theorem Closed.head_mem {rest : List Char} (h : Closed rest) : ∀ c ∈ rest.head?, c ∈ valueEnds := by
  obtain ⟨⟨bs, hbs⟩, tail, rfl, htail⟩ := h
  intro c hc
  cases bs with
  | nil => exact List.mem_cons_of_mem _ (List.mem_cons_of_mem _ (htail c hc))
  | cons b bs =>
      obtain rfl : b = c := by simpa using hc
      have hblank : b = ' ' ∨ b = '\t' := by simpa [isBlank] using hbs b List.mem_cons_self
      rcases hblank with rfl | rfl
      · exact List.mem_cons_self
      · exact List.mem_cons_of_mem _ List.mem_cons_self

theorem Closed.stops {rest : List Char} (h : Closed rest) {p : Char → Bool}
    (hp : valueEnds.any p = false) : Stops p rest :=
  fun c hc => Bool.eq_false_iff.mpr (List.any_eq_false.mp hp c (h.head_mem c hc))

theorem Closed.head_ne {rest : List Char} (h : Closed rest) {c : Char} (hc : c ∉ valueEnds) :
    rest.head? ≠ some c :=
  fun heq => hc (h.head_mem c heq)

/-! ### Digits -/

/-- Characters of a class, at least one. -/
abbrev Run (p : Char → Bool) : Type := { cs : List Char // cs ≠ [] ∧ ∀ c ∈ cs, p c = true }

/-- Digits with single underscores between them. -/
inductive Groups (p : Char → Bool) where
  | last (r : Run p)
  | more (r : Run p) (rest : Groups p)

namespace Groups

variable {p : Char → Bool}

def text : Groups p → List Char
  | last r => r.1
  | more r rest => r.1 ++ '_' :: rest.text

def digits : Groups p → List Char
  | last r => r.1
  | more r rest => r.1 ++ rest.digits

theorem exists_text_eq_cons (g : Groups p) : ∃ c cs, g.text = c :: cs ∧ p c = true := by
  cases g with
  | last r =>
      obtain ⟨c, cs, heq⟩ := List.exists_cons_of_ne_nil r.2.1
      exact ⟨c, cs, heq, r.2.2 c (by rw [heq]; exact List.mem_cons_self)⟩
  | more r rest =>
      obtain ⟨c, cs, heq⟩ := List.exists_cons_of_ne_nil r.2.1
      exact ⟨c, cs ++ '_' :: rest.text, by rw [text, heq]; rfl,
        r.2.2 c (by rw [heq]; exact List.mem_cons_self)⟩

end Groups

theorem digitGroups_run {p : Char → Bool} (r : Run p) {rest : List Char} (hrest : Stops p rest) (n : Nat) :
    digitGroups p (n + 1) (r.1 ++ rest) =
      (do
        if ← accept '_' then return r.1 ++ (← digitGroups p n)
        else return r.1 : Scan (List Char)) rest := by
  have hne : r.1.isEmpty = false := by simpa using r.2.1
  rw [digitGroups, bind_of_some (takeWhile_append r.2.2 hrest), hne]
  rfl

theorem digitGroups_text {p : Char → Bool} (hp : p '_' = false) (g : Groups p) {rest : List Char}
    (hrest : Stops p rest) (hmark : rest.head? ≠ some '_') :
    ∀ n, g.text.length ≤ n → digitGroups p n (g.text ++ rest) = some (g.digits, rest) := by
  induction g with
  | last r =>
      intro n hn
      have hpos : 0 < r.1.length := List.length_pos_iff.mpr r.2.1
      obtain ⟨k, rfl⟩ : ∃ k, n = k + 1 := ⟨n - 1, by simp only [Groups.text] at hn; omega⟩
      rw [Groups.text, digitGroups_run r hrest, bind_of_some (accept_of_ne hmark)]
      rfl
  | more r g ih =>
      intro n hn
      simp only [Groups.text, List.length_append, List.length_cons] at hn
      obtain ⟨k, rfl⟩ : ∃ k, n = k + 1 := ⟨n - 1, by omega⟩
      rw [Groups.text, List.append_assoc, List.cons_append, digitGroups_run r (stops_cons.mpr hp),
        bind_of_some (accept_self _ _), if_pos rfl, bind_of_some (ih k (by omega))]
      rfl

/-- A text in which a mark follows so many digits has that mark after all its first digits. -/
theorem head?_dropWhile_of_digitsThen {count : Nat} {mark : Char} (hmark : mark.isDigit = false)
    {cs : List Char} (h : digitsThen count mark cs = true) :
    (cs.dropWhile Char.isDigit).head? = some mark := by
  simp only [digitsThen, Bool.and_eq_true, decide_eq_true_eq, List.all_eq_true] at h
  obtain ⟨⟨hlength, hdigits⟩, hget⟩ := h
  have hdrop : (cs.drop count).head? = some mark := by rw [List.head?_drop, hget]
  obtain ⟨tail, htail⟩ : ∃ tail, cs.drop count = mark :: tail := by
    cases hcs : cs.drop count with
    | nil => rw [hcs] at hdrop; cases hdrop
    | cons c tail => rw [hcs] at hdrop; cases hdrop; exact ⟨tail, rfl⟩
  rw [← List.take_append_drop count cs, List.dropWhile_append_of_pos hdigits, htail,
    List.dropWhile_cons_of_neg (by simp [hmark])]
  rfl

theorem digitsThen_of_not_isDigit {count : Nat} {mark c : Char} {cs : List Char} (hc : c.isDigit = false) :
    digitsThen (count + 1) mark (c :: cs) = false := by
  simp [digitsThen, hc]

/-! ### Dates and times -/

/-- Digits of which the number is fixed. -/
structure Fixed (count : Nat) where
  digits : List Char
  length_digits : digits.length = count
  isDigit : ∀ c ∈ digits, c.isDigit = true

def Fixed.value {count : Nat} (f : Fixed count) : Nat :=
  f.digits.foldl (fun value c => value * 10 + (c.toNat - '0'.toNat)) 0

theorem fixedDigits_append {digits : List Char} (h : ∀ c ∈ digits, c.isDigit = true) (value : Nat)
    (rest : List Char) :
    fixedDigits digits.length value (digits ++ rest) =
      some (digits.foldl (fun value c => value * 10 + (c.toNat - '0'.toNat)) value, rest) := by
  induction digits generalizing value with
  | nil => rfl
  | cons c digits ih =>
      have hrest := ih (fun c hc => h c (List.mem_cons_of_mem _ hc)) (value * 10 + (c.toNat - '0'.toNat))
      rw [List.foldl_cons, ← hrest]
      exact if_pos (h c List.mem_cons_self)

theorem fixedDigits_text {count : Nat} (f : Fixed count) (rest : List Char) :
    fixedDigits count 0 (f.digits ++ rest) = some (f.value, rest) := by
  have hdigits := fixedDigits_append f.isDigit 0 rest
  rwa [f.length_digits] at hdigits

theorem digitsThen_fixed {count : Nat} (f : Fixed count) (mark : Char) (rest : List Char) :
    digitsThen count mark (f.digits ++ mark :: rest) = true := by
  have htake : (f.digits ++ mark :: rest).take count = f.digits := List.take_left' f.length_digits
  have hget : (f.digits ++ mark :: rest)[count]? = some mark := by
    rw [List.getElem?_append_right (by rw [f.length_digits]), f.length_digits, Nat.sub_self]
    rfl
  have hall : f.digits.all Char.isDigit = true := List.all_eq_true.mpr f.isDigit
  rw [digitsThen, htake, hget, hall, f.length_digits]
  simp

/-- Two digits in a range. -/
structure TwoDigits (low high : Nat) extends Fixed 2 where
  low_le : low ≤ toFixed.value
  le_high : toFixed.value ≤ high

theorem twoDigits_text {low high : Nat} (f : TwoDigits low high) (rest : List Char) :
    twoDigits low high (f.digits ++ rest) = some (f.value, rest) := by
  rw [twoDigits, bind_of_some (fixedDigits_text f.toFixed rest),
    if_pos (by simp [f.low_le, f.le_high])]
  rfl

/-- A time of day. -/
structure Time where
  hour : TwoDigits 0 23
  minute : TwoDigits 0 59
  second : TwoDigits 0 60
  fraction : Option (Run Char.isDigit)

def fractionText : Option (Run Char.isDigit) → List Char
  | none => []
  | some r => '.' :: r.1

def Time.text (t : Time) : List Char :=
  t.hour.digits ++ ':' :: (t.minute.digits ++ ':' :: (t.second.digits ++ fractionText t.fraction))

theorem time_text (t : Time) {rest : List Char} (hpoint : rest.head? ≠ some '.')
    (hdigit : Stops Char.isDigit rest) : time (t.text ++ rest) = some ((), rest) := by
  have htext : t.text ++ rest = t.hour.digits ++ ':' :: (t.minute.digits ++ ':' ::
      (t.second.digits ++ (fractionText t.fraction ++ rest))) := by
    simp [Time.text]
  rw [htext, time, bind_of_some (twoDigits_text t.hour _), bind_of_some (expect_self _ _),
    bind_of_some (twoDigits_text t.minute _), bind_of_some (expect_self _ _),
    bind_of_some (twoDigits_text t.second _)]
  cases t.fraction with
  | none =>
      rw [fractionText, List.nil_append, bind_of_some (accept_of_ne hpoint)]
      rfl
  | some r =>
      have hne : r.1.isEmpty = false := by simpa using r.2.1
      rw [fractionText, List.cons_append, bind_of_some (accept_self _ _), if_pos rfl,
        bind_of_some (takeWhile_append r.2.2 hdigit), hne]
      rfl

/-- The offset of a time. -/
inductive Offset where
  | zulu (lower : Bool)
  | shift (negative : Bool) (hour : TwoDigits 0 23) (minute : TwoDigits 0 59)

def offsetText : Option Offset → List Char
  | none => []
  | some (.zulu lower) => [if lower then 'z' else 'Z']
  | some (.shift negative hour minute) =>
    (if negative then '-' else '+') :: (hour.digits ++ ':' :: minute.digits)

theorem offset_none {rest : List Char} (hrest : Closed rest) : offset rest = some ((), rest) := by
  rw [offset, peek_bind]
  refine congrFun (g := (pure () : Scan Unit)) ?_ rest
  split
  case h_5 => rfl
  all_goals
    rename_i heq
    exact absurd heq (hrest.head_ne (by decide))

theorem offset_text (o : Option Offset) {rest : List Char} (hrest : Closed rest) :
    offset (offsetText o ++ rest) = some ((), rest) := by
  match o with
  | none => exact offset_none hrest
  | some (.zulu lower) =>
      rw [offset, peek_bind]
      cases lower with
      | false => rfl
      | true => rfl
  | some (.shift negative hour minute) =>
      have hread : (do
          let _ ← twoDigits 0 23
          expect ':'
          let _ ← twoDigits 0 59 : Scan Unit) (hour.digits ++ ':' :: (minute.digits ++ rest)) =
            some ((), rest) := by
        rw [bind_of_some (twoDigits_text hour _), bind_of_some (expect_self _ _),
          bind_of_some (twoDigits_text minute _)]
        rfl
      have htext : offsetText (some (.shift negative hour minute)) ++ rest =
          (if negative then '-' else '+') :: (hour.digits ++ ':' :: (minute.digits ++ rest)) := by
        simp [offsetText]
      rw [htext, offset, peek_bind]
      cases negative with
      | false => exact hread
      | true => exact hread

/-- What may stand between a date and its time. -/
inductive Delimiter where
  | upper
  | lower
  | space

def Delimiter.char : Delimiter → Char
  | upper => 'T'
  | lower => 't'
  | space => ' '

/-- The time that follows a date. -/
structure DayTime where
  delimiter : Delimiter
  time : Time
  offset : Option Offset

/-- A date, perhaps with a time. -/
structure Date where
  year : Fixed 4
  month : TwoDigits 1 12
  day : TwoDigits 1 (daysInMonth year.value month.value)
  time : Option DayTime

def dayTimeText : Option DayTime → List Char
  | none => []
  | some t => t.delimiter.char :: (t.time.text ++ offsetText t.offset)

def Date.text (d : Date) : List Char :=
  d.year.digits ++ '-' :: (d.month.digits ++ '-' :: (d.day.digits ++ dayTimeText d.time))

/-- What follows a value is no time. -/
theorem Closed.not_time {d : Char} {cs : List Char} (h : Closed (d :: cs)) :
    ((d = 'T' || d = 't' || d = ' ') && digitsThen 2 ':' cs) = false := by
  obtain ⟨⟨bs, hbs⟩, tail, heq, htail⟩ := h
  cases bs with
  | nil =>
      rw [List.nil_append] at heq
      have hmark : d ∈ endMarks := htail d (by rw [← heq]; rfl)
      have hall : endMarks.any (fun d => d = 'T' || d = 't' || d = ' ') = false := rfl
      rw [Bool.eq_false_iff.mpr (List.any_eq_false.mp hall d hmark), Bool.false_and]
  | cons b bs =>
      obtain rfl : cs = bs ++ tail := (List.cons.inj heq).2
      have hclosed : Closed (bs ++ tail) :=
        ⟨⟨bs, fun c hc => hbs c (List.mem_cons_of_mem _ hc)⟩, tail, rfl, htail⟩
      have hdigit : Stops Char.isDigit (bs ++ tail) := hclosed.stops rfl
      rw [Bool.and_eq_false_iff]
      right
      cases hcs : bs ++ tail with
      | nil => rfl
      | cons c cs => exact digitsThen_of_not_isDigit (stops_cons.mp (hcs ▸ hdigit))

theorem offsetText_stops (o : Option Offset) {rest : List Char} (hrest : Closed rest) {p : Char → Bool}
    (hmarks : ['Z', 'z', '+', '-'].any p = false) (hends : valueEnds.any p = false) :
    Stops p (offsetText o ++ rest) := by
  have hp {c : Char} (hc : c ∈ ['Z', 'z', '+', '-']) : p c = false :=
    Bool.eq_false_iff.mpr (List.any_eq_false.mp hmarks c hc)
  match o with
  | none => exact hrest.stops hends
  | some (.zulu true) => exact stops_cons.mpr (hp (by decide))
  | some (.zulu false) => exact stops_cons.mpr (hp (by decide))
  | some (.shift true hour minute) => exact stops_cons.mpr (hp (by decide))
  | some (.shift false hour minute) => exact stops_cons.mpr (hp (by decide))

/-- A time after a date is read to its end. -/
theorem dayTime_text (t : DayTime) {rest : List Char} (hrest : Closed rest) :
    (do set (t.time.text ++ (offsetText t.offset ++ rest)); time; offset : Scan Unit)
        (t.delimiter.char :: (t.time.text ++ (offsetText t.offset ++ rest))) = some ((), rest) := by
  have hpoint : Stops (· = '.') (offsetText t.offset ++ rest) := offsetText_stops _ hrest rfl rfl
  have hread := time_text t.time (fun heq => by simpa using hpoint '.' heq)
    (offsetText_stops t.offset hrest rfl rfl)
  exact (bind_of_some hread fun _ => offset).trans (offset_text t.offset hrest)

theorem date_text (d : Date) {rest : List Char} (hrest : Closed rest) :
    date (d.text ++ rest) = some ((), rest) := by
  have htext : d.text ++ rest = d.year.digits ++ '-' :: (d.month.digits ++ '-' ::
      (d.day.digits ++ (dayTimeText d.time ++ rest))) := by
    simp [Date.text]
  rw [htext, date, bind_of_some (fixedDigits_text d.year _), bind_of_some (expect_self _ _),
    bind_of_some (twoDigits_text d.month _), bind_of_some (expect_self _ _),
    bind_of_some (twoDigits_text d.day _), get_bind]
  cases d.time with
  | none =>
      rw [dayTimeText, List.nil_append]
      cases rest with
      | nil => rfl
      | cons c cs =>
          refine congrFun (g := (pure () : Scan Unit)) (if_neg ?_) _
          rw [hrest.not_time]
          exact Bool.false_ne_true
  | some t =>
      have hdigits : digitsThen 2 ':' (t.time.text ++ (offsetText t.offset ++ rest)) = true := by
        rw [Time.text, List.append_assoc, List.cons_append]
        exact digitsThen_fixed t.time.hour.toFixed ':' _
      have htext : dayTimeText (some t) ++ rest =
          t.delimiter.char :: (t.time.text ++ (offsetText t.offset ++ rest)) := by
        simp [dayTimeText]
      rw [htext]
      refine (congrFun (if_pos ?_) _).trans (dayTime_text t hrest)
      rw [hdigits]
      cases t.delimiter <;> rfl

end ApiSurface.Toml
