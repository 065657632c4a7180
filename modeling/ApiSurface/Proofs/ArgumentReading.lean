import Mathlib.Data.List.Basic
import ApiSurface.Command.Arguments

/-! Reading command lines argument by argument. One argument adds to what was read, or is an option
that waits for its value; that is all the arguments after it need to know (`collect_cons`). So what
stands before an option is read by itself, and occurrences of the one option that may be given often
add up, in whichever of its forms each of them is written. -/

namespace ApiSurface.Command

/-! ### Arguments one by one -/

/-- What one argument does: it adds to what was read, and it may be an option that waits for its
value. Two hyphens are no such argument, as they change how all that follow are read. -/
def word (allowed : List Setting) (limit : Nat) (arg : String) (g : Given) :
    Except Refusal (Given × Option Setting) :=
  match arg.toList with
  | '-' :: '-' :: cs =>
    match splitLong cs with
    | ("help", none) => .error .help
    | (name, value?) =>
      match allowed.find? fun s => s.long = name, value? with
      | none, _ => .error .usage
      | some s, some value =>
        if s.takesValue then do return (← g.addSetting s value, none) else .error .usage
      | some s, none =>
        if s.takesValue then .ok (g, some s) else do return (← g.addSetting s "", none)
  | '-' :: c :: cs => cluster allowed (c :: cs) g
  | _ => do return (← g.addOperand limit arg, none)

/-- The arguments that follow, where an option may wait for its value. -/
def resume (allowed : List Setting) (limit : Nat) (args : List String) :
    Given × Option Setting → Except Refusal Given
  | (g, none) => collect allowed limit args g
  | (g, some s) => match args with
    | value :: rest =>
      if isOption value then .error .usage
      else do collect allowed limit rest (← g.addSetting s value)
    | [] => .error .usage

variable {allowed : List Setting} {limit : Nat}

theorem collect_hyphens (args : List String) (g : Given) :
    collect allowed limit ("--" :: args) g = args.foldlM (Given.addOperand limit) g := by
  rw [collect]
  rfl

theorem collect_cons {arg : String} (harg : arg ≠ "--") (args : List String) (g : Given) :
    collect allowed limit (arg :: args) g =
      word allowed limit arg g >>= resume allowed limit args := by
  have hhyphens : arg.toList ≠ ['-', '-'] := by
    intro h
    apply harg
    rw [← String.ofList_toList (s := arg), h]
  rw [collect, word]
  split
  · exact absurd ‹_› hhyphens
  · rename_i cs hcs htext
    simp only [htext]
    rcases hsplit : splitLong cs with ⟨name, _ | value⟩
    · by_cases hname : name = "help"
      · rw [hname]
        rfl
      · cases hfind : allowed.find? fun s => s.long = name with
        | none => simp [hname, hfind, Bind.bind, Except.bind]
        | some s =>
            simp only [hname, hfind, imp_self, imp_false, not_true_eq_false, bind_pure_comp]
            split_ifs
            · cases args <;> rfl
            · simp only [bind_map_left, resume]
    · cases hfind : allowed.find? fun s => s.long = name with
      | none => simp [hfind, Bind.bind, Except.bind]
      | some s =>
          simp only [hfind]
          split_ifs
          · simp only [bind_assoc, pure_bind, resume]
          · rfl
  · rename_i c cs hcs hc htext
    simp only [htext]
    apply bind_congr
    intro r
    obtain ⟨g, s | s⟩ := r
    · rfl
    · cases args <;> rfl
  · rename_i h1 h2 h3
    split
    · exact absurd ‹_› (h2 _)
    · exact absurd ‹_› (h3 _ _)
    · simp only [bind_assoc, pure_bind, resume]

/-- Arguments before an option are read by themselves, as they cannot take it for a value. -/
theorem collect_append {option : String} (hoption : isOption option = true) (rest : List String)
    {front : List String} (hfront : "--" ∉ front) (g : Given) :
    collect allowed limit (front ++ option :: rest) g =
      collect allowed limit front g >>= collect allowed limit (option :: rest) := by
  induction hlength : front.length using Nat.strongRecOn generalizing front g with
  | _ length ih =>
  cases front with
  | nil => rfl
  | cons arg args =>
      rw [List.mem_cons, not_or] at hfront
      rw [List.length_cons] at hlength
      have harg : arg ≠ "--" := Ne.symm hfront.1
      rw [List.cons_append, collect_cons harg, collect_cons harg, bind_assoc]
      apply bind_congr
      intro r
      obtain ⟨g, s | s⟩ := r
      · exact ih args.length (by omega) hfront.2 g rfl
      · cases args with
        | nil =>
            simp only [resume, List.nil_append, hoption, if_true]
            rfl
        | cons value args =>
            rw [List.length_cons] at hlength
            simp only [List.cons_append, resume]
            split_ifs
            · rfl
            · rw [bind_assoc]
              apply bind_congr
              intro g
              exact ih args.length (by omega) (List.not_mem_of_not_mem_cons hfront.2) g rfl

/-! ### Giving the option -/

/-- The ways of writing the option with its value. -/
inductive Spelling where
  | longEquals
  | longNext
  | shortEquals
  | shortJoined
  | shortNext
deriving DecidableEq

namespace Spelling

def args (value : String) : Spelling → List String
  | longEquals => ["--exclude=" ++ value]
  | longNext => ["--exclude", value]
  | shortEquals => ["-e=" ++ value]
  | shortJoined => ["-e" ++ value]
  | shortNext => ["-e", value]

/-- The value can be written so: an argument of its own does not look like an option, and what is
joined to the short form is there and does not begin with an equals sign. -/
def Fits (value : String) : Spelling → Prop
  | longEquals | shortEquals => True
  | longNext | shortNext => isOption value = false
  | shortJoined => ∃ c cs, value.toList = c :: cs ∧ c ≠ '='

end Spelling

/-- The option given once. -/
structure Occurrence where
  value : String
  spelling : Spelling
  fits : spelling.Fits value

namespace Occurrence

def args (o : Occurrence) : List String := o.spelling.args o.value

/-- The arguments of several in turn. -/
def line (os : List Occurrence) : List String := os.flatMap args

def values (os : List Occurrence) : List String := os.map value

theorem values_ne_nil {os : List Occurrence} (h : os ≠ []) : values os ≠ [] := by
  rw [values, ne_eq, List.map_eq_nil_iff]
  exact h

end Occurrence

/-- The option is among those of a command, in both its forms. -/
structure Offers (allowed : List Setting) : Prop where
  long : allowed.find? (fun s => s.long = "exclude") = some .exclude
  short : allowed.find? (fun s => s.short? = some 'e') = some .exclude

/-- What was read, and values of the option after it. -/
def Given.adding (g : Given) (values : List String) : Given :=
  { g with settings := g.settings ++ values.map (Setting.exclude, ·) }

theorem Given.values_append (g : Given) (s : Setting) (more : List (Setting × String)) :
    ({ g with settings := g.settings ++ more } : Given).values s =
      g.values s ++ ({ settings := more } : Given).values s := by
  simp only [values, List.filter_append, List.map_append]

theorem Given.values_adding (g : Given) (values : List String) :
    (g.adding values).values .exclude = g.values .exclude ++ values := by
  have hall : (values.map (Setting.exclude, ·)).filter (fun e => e.1 = .exclude) =
      values.map (Setting.exclude, ·) := by
    simp [List.filter_eq_self]
  rw [adding, values_append, Given.values, Given.values, hall, List.map_map]
  congr 1
  exact List.map_id values

theorem ne_hyphens_of_toList {arg : String} {cs : List Char} {c : Char}
    (harg : arg.toList = '-' :: c :: cs) (h : c ≠ '-' ∨ cs ≠ []) : arg ≠ "--" := by
  rintro rfl
  obtain ⟨rfl, rfl⟩ : '-' = c ∧ [] = cs := by simpa using harg
  simp at h

theorem word_long (h : Offers allowed) {arg : String} {cs : List Char}
    (harg : arg.toList = '-' :: '-' :: cs) (g : Given) :
    (∀ value, splitLong cs = ("exclude", some value) →
      word allowed limit arg g = .ok (g.adding [value], none)) ∧
    (splitLong cs = ("exclude", none) → word allowed limit arg g = .ok (g, some .exclude)) := by
  constructor
  · intro value hsplit
    simp only [word, harg, hsplit, String.reduceEq, reduceCtorEq, imp_self, implies_true, h.long]
    rfl
  · intro hsplit
    simp [word, harg, hsplit, h.long, Setting.takesValue]

theorem word_short {arg : String} {cs : List Char} (harg : arg.toList = '-' :: 'e' :: cs)
    (g : Given) : word allowed limit arg g = cluster allowed ('e' :: cs) g := by
  rw [word, harg]
  rfl

/-- One argument that adds its value, or two of which the first waits for the second. -/
theorem Occurrence.exists_option (h : Offers allowed) (limit : Nat) (o : Occurrence) :
    ∃ option, isOption option = true ∧ option ≠ "--" ∧
      (o.args = [option] ∧
          (∀ g, word allowed limit option g = .ok (g.adding [o.value], none)) ∨
        o.args = [option, o.value] ∧ isOption o.value = false ∧
          ∀ g, word allowed limit option g = .ok (g, some .exclude)) := by
  obtain ⟨value, spelling, fits⟩ := o
  cases spelling with
  | longEquals =>
      have htext : ("--exclude=" ++ value).toList =
          '-' :: '-' :: ("exclude=".toList ++ value.toList) := by simp
      have hsplit : splitLong ("exclude=".toList ++ value.toList) = ("exclude", some value) := by
        simp [splitLong]
      refine ⟨"--exclude=" ++ value, by simp [isOption], ?_, Or.inl ⟨rfl, fun g => ?_⟩⟩
      · exact ne_hyphens_of_toList htext (Or.inr (by simp))
      · exact (word_long h htext g).1 value hsplit
  | longNext =>
      have htext : "--exclude".toList = '-' :: '-' :: "exclude".toList := by simp
      have hsplit : splitLong "exclude".toList = ("exclude", none) := by decide
      refine ⟨"--exclude", by decide, by decide, Or.inr ⟨rfl, fits, fun g => ?_⟩⟩
      exact (word_long h htext g).2 hsplit
  | shortEquals =>
      have htext : ("-e=" ++ value).toList = '-' :: 'e' :: '=' :: value.toList := by simp
      refine ⟨"-e=" ++ value, by simp [isOption], ?_, Or.inl ⟨rfl, fun g => ?_⟩⟩
      · exact ne_hyphens_of_toList htext (Or.inl (by decide))
      · rw [word_short htext, cluster, if_neg (by decide), h.short]
        simp only [String.ofList_toList]
        rfl
  | shortJoined =>
      obtain ⟨c, cs, hvalue, hc⟩ := fits
      have htext : ("-e" ++ value).toList = '-' :: 'e' :: c :: cs := by simp [hvalue]
      have hrest : String.ofList (c :: cs) = value := by
        rw [← hvalue, String.ofList_toList]
      refine ⟨"-e" ++ value, by simp [isOption], ?_, Or.inl ⟨rfl, fun g => ?_⟩⟩
      · exact ne_hyphens_of_toList htext (Or.inl (by decide))
      · rw [word_short htext, cluster, if_neg (by decide), h.short]
        simp only [List.cons.injEq, hc, false_and, imp_self, implies_true, hrest]
        rfl
  | shortNext =>
      have htext : "-e".toList = ['-', 'e'] := by simp
      refine ⟨"-e", by decide, by decide, Or.inr ⟨rfl, fits, fun g => ?_⟩⟩
      rw [word_short htext, cluster, if_neg (by decide), h.short]
      rfl

theorem collect_occurrence (h : Offers allowed) (o : Occurrence) (rest : List String) (g : Given) :
    collect allowed limit (o.args ++ rest) g = collect allowed limit rest (g.adding [o.value]) := by
  obtain ⟨option, -, hoption, ⟨hargs, hword⟩ | ⟨hargs, hvalue, hword⟩⟩ := o.exists_option h limit
  · rw [hargs, List.singleton_append, collect_cons hoption, hword]
    rfl
  · rw [hargs, List.cons_append, collect_cons hoption, hword, List.singleton_append]
    change resume allowed limit (o.value :: rest) (g, some .exclude) = _
    rw [resume, hvalue]
    rfl

theorem Given.adding_adding (g : Given) (values more : List String) :
    (g.adding values).adding more = g.adding (values ++ more) := by
  simp [adding]

/-- **The occurrences add up.** -/
theorem collect_line (h : Offers allowed) (os : List Occurrence) (rest : List String) (g : Given) :
    collect allowed limit (Occurrence.line os ++ rest) g =
      collect allowed limit rest (g.adding (Occurrence.values os)) := by
  induction os generalizing g with
  | nil => simp [Occurrence.line, Occurrence.values, Given.adding]
  | cons o os ih =>
      rw [Occurrence.line, List.flatMap_cons, List.append_assoc, collect_occurrence h,
        ← Occurrence.line, ih, Given.adding_adding]
      rfl

/-- The arguments before the option are read by themselves, and then its values are there. -/
theorem collect_between (h : Offers allowed) {front : List String} (hfront : "--" ∉ front)
    {os : List Occurrence} (hos : os ≠ []) (rest : List String) (g : Given) :
    collect allowed limit (front ++ (Occurrence.line os ++ rest)) g =
      collect allowed limit front g >>= fun g =>
        collect allowed limit rest (g.adding (Occurrence.values os)) := by
  have hoption : ∃ option args, isOption option = true ∧
      Occurrence.line os ++ rest = option :: args := by
    obtain ⟨o, os, rfl⟩ := List.exists_cons_of_ne_nil hos
    obtain ⟨option, hoption, -, ⟨hargs, -⟩ | ⟨hargs, -⟩⟩ := o.exists_option h limit
    · exact ⟨option, _, hoption, by rw [Occurrence.line, List.flatMap_cons, hargs]; rfl⟩
    · exact ⟨option, _, hoption, by rw [Occurrence.line, List.flatMap_cons, hargs]; rfl⟩
  obtain ⟨option, args, hoption, hline⟩ := hoption
  rw [hline, collect_append hoption args hfront, ← hline]
  apply bind_congr
  intro g
  exact collect_line h os rest g

end ApiSurface.Command
