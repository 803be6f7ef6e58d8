import Mathlib.Data.List.Infix
import Mathlib.Order.Nat
import TwoPhaseCommit.Toml.Text

/-!
# Strings that are written and read

Of the four forms of a string the writer chooses one that can hold the text. What it writes is read
back from the front of a line (`Toml.Text.read_write`), whatever the text: what stands for itself
does not end the string, and what would end it is an escape.
-/

namespace TwoPhaseCommit.Toml.Text

variable {c x : Char} {cs rest : List Char} {run quotes : Nat} {lines : Bool}

/-! ### Escapes -/

/-- A character stands as an escape, by a letter or by the digits of its code point. -/
inductive Escapes (c : Char) : List Char → Prop
  | letter {x : Char} (h : escaped? x = some c) : Escapes c ['\\', x]
  | point {a b d e : Char} (h : codePoint? [a, b, d, e] = some c) : Escapes c ['\\', 'u', a, b, d, e]

lemma Escapes.eq_cons (h : Escapes c cs) : ∃ rest, cs = '\\' :: rest := by
  cases h <;> exact ⟨_, rfl⟩

/-- Whether `escapeAll` writes an escape, quotes that may stay apart. -/
def isEscaped (lines : Bool) (c : Char) : Bool :=
  c = '"' || c = '\\' || c = '\t' || needsEscape c || (c = '\n' && !lines)

lemma toNat_lt_of_isEscaped (h : isEscaped lines c = true) : c.toNat < 0x80 := by
  by_contra hc
  have hlarge : ∀ d : Char, d.toNat < 0x80 → c ≠ d := by
    rintro d hd rfl
    exact hc hd
  simp [isEscaped, needsEscape, isPrintable, hlarge '"' (by decide), hlarge '\\' (by decide),
    hlarge '\t' (by decide), hlarge '\n' (by decide)] at h
  omega

lemma codePoint?_digits {n : Nat} (h : n < 0x80) :
    ∃ a b d e, (Hex.digits 4 n).map Char.toUpper = [a, b, d, e] ∧
      codePoint? [a, b, d, e] = some (Char.ofNat n) := by
  have hall : ∀ n < 0x80, codePoint? ((Hex.digits 4 n).map Char.toUpper) = some (Char.ofNat n) := by
    decide +kernel
  have hlength : ((Hex.digits 4 n).map Char.toUpper).length = 4 := by simp
  obtain ⟨a, b, d, e, heq⟩ := List.length_eq_four.mp hlength
  exact ⟨a, b, d, e, heq, heq ▸ hall n h⟩

lemma escapes_escape (h : isEscaped lines c = true) : Escapes c (escape c) := by
  rw [escape.eq_def]
  split
  · exact .letter rfl
  · exact .letter rfl
  · exact .letter rfl
  · exact .letter rfl
  · exact .letter rfl
  · exact .letter rfl
  · exact .letter rfl
  · obtain ⟨a, b, d, e, heq, hpoint⟩ := codePoint?_digits (toNat_lt_of_isEscaped h)
    rw [heq]
    rw [Char.ofNat_toNat] at hpoint
    exact .point hpoint

/-- What stands for itself is printable, or a line feed where that may stay. -/
lemma isPrintable_of_isEscaped (h : isEscaped lines c = false) :
    c ≠ '"' ∧ c ≠ '\\' ∧ (isPrintable c = true ∨ c = '\n' ∧ lines = true) := by
  simp only [isEscaped, needsEscape, Bool.or_eq_false_iff, decide_eq_false_iff_not,
    Bool.and_eq_false_iff, Bool.not_eq_false', bne_eq_false_iff_eq] at h
  obtain ⟨⟨⟨⟨hquote, hslash⟩, -⟩, hprint⟩, hline⟩ := h
  refine ⟨hquote, hslash, ?_⟩
  rcases hprint with hprint | rfl
  · exact .inl hprint
  · exact .inr ⟨rfl, hline.resolve_left (by simp)⟩

lemma escapeAll_cons (quotes : Nat) (lines : Bool) (run : Nat) (c : Char) (cs : List Char) :
    escapeAll quotes lines run (c :: cs) =
      if c = '"' ∧ run < quotes then c :: escapeAll quotes lines (run + 1) cs
      else if isEscaped lines c = true then escape c ++ escapeAll quotes lines 0 cs
      else c :: escapeAll quotes lines 0 cs := by
  rw [escapeAll]
  simp only [isEscaped, Bool.or_eq_true, Bool.and_eq_true, decide_eq_true_eq, or_assoc]

/-- The first character is a quote only where one may stay. -/
lemma escapeAll_eq_cons (lines : Bool) (cs : List Char) (h : ¬(c = '"' ∧ run < quotes)) :
    ∃ d rest, escapeAll quotes lines run (c :: cs) = d :: rest ∧ d ≠ '"' := by
  rw [escapeAll_cons, if_neg h]
  split
  next hc =>
    obtain ⟨rest, hrest⟩ := (escapes_escape hc).eq_cons
    rw [hrest, List.cons_append]
    exact ⟨_, _, rfl, by decide⟩
  next hc => exact ⟨_, _, rfl, (isPrintable_of_isEscaped (eq_false_of_ne_true hc)).1⟩

/-! ### Between two quotes -/

lemma basic_append (h : Escapes c cs) (rest : List Char) :
    basic (cs ++ rest) = push c <$> basic rest := by
  cases h with
  | @letter x hx =>
    have hu : x ≠ 'u' := by
      rintro rfl
      cases hx
    have hU : x ≠ 'U' := by
      rintro rfl
      cases hx
    rw [List.cons_append, List.cons_append, List.nil_append, basic, hx]
    · cases basic rest <;> rfl
    · exact fun _ _ _ _ _ hx _ => hu hx
    · exact fun _ _ _ _ _ _ _ _ _ hx _ => hU hx
  | point hpoint =>
    simp only [List.cons_append, List.nil_append]
    rw [basic, hpoint]
    cases basic rest <;> rfl

lemma basic_cons (hquote : c ≠ '"') (hslash : c ≠ '\\') (hprint : isPrintable c = true) :
    basic (c :: cs) = push c <$> basic cs := by
  rw [basic, if_pos hprint]
  · exact hquote
  · exact fun _ _ _ _ _ hc _ => hslash hc
  · exact fun _ _ _ _ _ _ _ _ _ hc _ => hslash hc
  · exact fun _ _ hc _ => hslash hc

lemma basic_escapeAll (run : Nat) (cs rest : List Char) :
    basic (escapeAll 0 false run cs ++ '"' :: rest) = some (cs, rest) := by
  induction cs generalizing run with
  | nil => rw [escapeAll, List.nil_append, basic]
  | cons c cs ih =>
    rw [escapeAll_cons, if_neg (by omega)]
    split
    next hc =>
      rw [List.append_assoc, basic_append (escapes_escape hc), ih]
      rfl
    next hc =>
      obtain ⟨hquote, hslash, hprint⟩ := isPrintable_of_isEscaped (eq_false_of_ne_true hc)
      rw [List.cons_append, basic_cons hquote hslash (hprint.resolve_right (by simp)), ih]
      rfl

/-! ### Between two apostrophes -/

lemma literal_append (h : ∀ c ∈ cs, c ≠ '\'' ∧ isPrintable c = true) (rest : List Char) :
    literal (cs ++ '\'' :: rest) = some (cs, rest) := by
  induction cs with
  | nil => rw [List.nil_append, literal]
  | cons c cs ih =>
    rw [List.forall_mem_cons] at h
    rw [List.cons_append, literal, if_pos h.1.2, ih h.2]
    · rfl
    · exact h.1.1

/-! ### Between three quotes -/

lemma multilineBasic_append (h : Escapes c cs) (rest : List Char) :
    multilineBasic .none (cs ++ rest) = push c <$> multilineBasic .none rest := by
  cases h with
  | @letter x hx =>
    have hne : ∀ y, escaped? y = none → x ≠ y := by
      rintro y hy rfl
      cases hx.symm.trans hy
    rw [List.cons_append, List.cons_append, List.nil_append, multilineBasic,
      if_neg (hne '\n' rfl), if_neg (not_or.mpr ⟨hne ' ' rfl, hne '\t' rfl⟩), hx]
    · cases multilineBasic .none rest <;> rfl
    · exact fun _ _ _ _ _ hx _ => hne 'u' rfl hx
    · exact fun _ _ _ _ _ _ _ _ _ hx _ => hne 'U' rfl hx
    · exact fun _ hx _ => hne '\r' rfl hx
    · exact nofun
  | point hpoint =>
    simp only [List.cons_append, List.nil_append]
    rw [multilineBasic, hpoint]
    · cases multilineBasic .none rest <;> rfl
    · exact nofun

lemma multilineBasic_cons (hquote : ¬['"', '"', '"'] <+: c :: cs) (hslash : c ≠ '\\')
    (hprint : isPrintable c = true ∨ c = '\n') :
    multilineBasic .none (c :: cs) = push c <$> multilineBasic .none cs := by
  have hreturn : c ≠ '\r' := by
    rintro rfl
    simp [isPrintable] at hprint
  rw [multilineBasic, if_pos hprint.symm]
  · rintro cs rfl rfl
    exact hquote ⟨_, rfl⟩
  · rintro cs rfl rfl
    exact hquote ⟨_, rfl⟩
  · rintro cs rfl rfl
    exact hquote ⟨_, rfl⟩
  · exact fun _ _ _ _ _ hc _ => hslash hc
  · exact fun _ _ _ _ _ _ _ _ _ hc _ => hslash hc
  · exact fun _ hc _ => hslash hc
  · exact fun _ _ hc _ => hslash hc
  · exact fun _ hc _ => hreturn hc
  all_goals exact nofun

/-- Quotes that stay are taken one by one, but for one or two at the end. -/
lemma multilineBasic_escapeAll (run : Nat) (cs rest : List Char) :
    multilineBasic .none (escapeAll 2 true run cs ++ '"' :: '"' :: '"' :: '\n' :: rest) =
      some (cs, '\n' :: rest) := by
  induction cs generalizing run with
  | nil =>
    rw [escapeAll, List.nil_append, multilineBasic]
    · simp
    · simp
    · exact nofun
  | cons c cs ih =>
    rw [escapeAll_cons]
    split
    next hc =>
      obtain ⟨rfl, hrun⟩ := hc
      -- a quote is text as long as no two others follow
      have taken (h : ¬['"', '"', '"'] <+: '"' :: (escapeAll 2 true (run + 1) cs ++
          '"' :: '"' :: '"' :: '\n' :: rest)) : multilineBasic .none ('"' ::
            escapeAll 2 true (run + 1) cs ++ '"' :: '"' :: '"' :: '\n' :: rest) =
          some ('"' :: cs, '\n' :: rest) := by
        rw [List.cons_append, multilineBasic_cons h (by decide) (.inl rfl), ih]
        rfl
      cases cs with
      | nil =>
        rw [escapeAll, List.cons_append, List.nil_append, multilineBasic]
        · simp
        · exact nofun
      | cons d ds =>
        by_cases hd : d = '"' ∧ run + 1 < 2
        · cases ds with
          | nil =>
            rw [escapeAll_cons, if_pos hd, escapeAll, hd.1]
            simp only [List.cons_append, List.nil_append]
            rw [multilineBasic]
            exact nofun
          | cons e es =>
            obtain ⟨f, t, heq, hf⟩ := escapeAll_eq_cons true es
              (show ¬(e = '"' ∧ run + 1 + 1 < 2) by omega)
            refine taken ?_
            rw [escapeAll_cons, if_pos hd, heq]
            simp [hf.symm]
        · -- what follows is no quote, or begins with an escape
          obtain ⟨f, t, heq, hf⟩ := escapeAll_eq_cons true ds hd
          refine taken ?_
          rw [heq]
          simp [hf.symm]
    next =>
      split
      next hc =>
        rw [List.append_assoc, multilineBasic_append (escapes_escape hc), ih]
        rfl
      next hc =>
        obtain ⟨hquote, hslash, hprint⟩ := isPrintable_of_isEscaped (eq_false_of_ne_true hc)
        rw [List.cons_append, multilineBasic_cons _ hslash (hprint.imp_right And.left), ih]
        · rfl
        · rintro ⟨t, ht⟩
          exact hquote (List.cons.inj ht).1.symm

/-! ### Runs of a character -/

/-- The longest run so far and the one at the end, after one more character. -/
def extend (x : Char) (r : Nat × Nat) (c : Char) : Nat × Nat :=
  let run := if c = x then r.2 + 1 else 0
  (max r.1 run, run)

lemma longestRun_eq (x : Char) (cs : List Char) :
    longestRun x cs = (cs.foldl (extend x) (0, 0)).1 := rfl

lemma fst_le_foldl (x : Char) (r : Nat × Nat) (cs : List Char) :
    r.1 ≤ (cs.foldl (extend x) r).1 := by
  induction cs generalizing r with
  | nil => exact le_rfl
  | cons c cs ih => exact (le_max_left ..).trans (ih (extend x r c))

lemma snd_le_fst_foldl (x : Char) {r : Nat × Nat} (h : r.2 ≤ r.1) (cs : List Char) :
    (cs.foldl (extend x) r).2 ≤ (cs.foldl (extend x) r).1 := by
  induction cs generalizing r with
  | nil => exact h
  | cons c cs ih => exact ih (r := extend x r c) (le_max_right ..)

lemma snd_foldl_replicate (x : Char) (r : Nat × Nat) (n : Nat) :
    ((List.replicate n x).foldl (extend x) r).2 = r.2 + n := by
  induction n generalizing r with
  | zero => rfl
  | succ n ih =>
    rw [List.replicate_succ, List.foldl_cons, ih, extend, if_pos rfl]
    omega

/-- No run is longer than the longest. -/
lemma le_longestRun {n : Nat} (h : List.replicate n x <:+: cs) : n ≤ longestRun x cs := by
  obtain ⟨before, after, rfl⟩ := h
  have hbefore := snd_le_fst_foldl x (r := (0, 0)) le_rfl (before ++ List.replicate n x)
  rw [List.foldl_append, snd_foldl_replicate] at hbefore
  rw [longestRun_eq, List.foldl_append, List.foldl_append]
  exact (Nat.le_add_left n _).trans (hbefore.trans (fst_le_foldl ..))

/-! ### Between three apostrophes -/

/-- Apostrophes are taken one by one, but for one or two at the end. -/
lemma multilineLiteral_append (h : ∀ c ∈ cs, isPrintable c = true ∨ c = '\n')
    (hruns : ¬['\'', '\'', '\''] <:+: cs) (rest : List Char) :
    multilineLiteral (cs ++ '\'' :: '\'' :: '\'' :: '\n' :: rest) = some (cs, '\n' :: rest) := by
  induction cs with
  | nil =>
    rw [List.nil_append, multilineLiteral]
    · simp
    · simp
  | cons c cs ih =>
    rw [List.forall_mem_cons] at h
    have ih := ih h.2 fun hcs => hruns (hcs.trans (List.suffix_cons c cs).isInfix)
    have hreturn : c ≠ '\r' := by
      rintro rfl
      simp [isPrintable] at h
    -- one or two apostrophes at the end run together with the three that close the string
    by_cases hends : c = '\'' ∧ (cs = [] ∨ cs = ['\''])
    · obtain ⟨rfl, rfl | rfl⟩ := hends
      · simp only [List.cons_append, List.nil_append]
        rw [multilineLiteral]
        simp
      · simp only [List.cons_append, List.nil_append]
        rw [multilineLiteral]
    · have hthree : ∀ t, c = '\'' → cs ++ '\'' :: '\'' :: '\'' :: '\n' :: rest ≠
          '\'' :: '\'' :: t := by
        rintro t rfl heq
        cases cs with
        | nil => exact hends ⟨rfl, .inl rfl⟩
        | cons d ds =>
          obtain rfl := (List.cons.inj heq).1
          have heq := (List.cons.inj heq).2
          cases ds with
          | nil => exact hends ⟨rfl, .inr rfl⟩
          | cons e es =>
            obtain rfl := (List.cons.inj heq).1
            exact hruns (List.prefix_append ['\'', '\'', '\''] es).isInfix
      rw [List.cons_append, multilineLiteral, if_pos h.1.symm, ih]
      · rfl
      · exact fun t hc => hthree _ hc
      · exact fun t hc => hthree _ hc
      · exact fun t hc => hthree _ hc
      · exact fun t hc _ => hreturn hc

/-! ### Every form -/

lemma afterOpening_cons (h : c ≠ '\n') (h' : c ≠ '\r') (cs : List Char) :
    afterOpening (c :: cs) = c :: cs := by
  rw [afterOpening.eq_def]
  split
  next heq => exact absurd (List.cons.inj heq).1 h
  next heq => exact absurd (List.cons.inj heq).1 h'
  next => rfl

lemma afterOpening_escapeAll (h : '\n' ∉ cs) (rest : List Char) :
    afterOpening (escapeAll quotes true run cs ++ '"' :: rest) =
      escapeAll quotes true run cs ++ '"' :: rest := by
  cases cs with
  | nil =>
    rw [escapeAll, List.nil_append]
    exact afterOpening_cons (by decide) (by decide) _
  | cons c cs =>
    rw [List.mem_cons, not_or] at h
    rw [escapeAll_cons]
    split
    next hc =>
      obtain ⟨rfl, -⟩ := hc
      exact afterOpening_cons (by decide) (by decide) _
    next =>
      split
      next hc =>
        obtain ⟨escape, hescape⟩ := (escapes_escape hc).eq_cons
        rw [hescape]
        exact afterOpening_cons (by decide) (by decide) _
      next hc =>
        obtain ⟨-, -, hprint⟩ := isPrintable_of_isEscaped (eq_false_of_ne_true hc)
        refine afterOpening_cons (Ne.symm h.1) ?_ _
        rintro rfl
        simp [isPrintable] at hprint

lemma afterOpening_append (h : ∀ c ∈ cs, isPrintable c = true) (rest : List Char) :
    afterOpening (cs ++ '\'' :: rest) = cs ++ '\'' :: rest := by
  cases cs with
  | nil => exact afterOpening_cons (by decide) (by decide) _
  | cons c cs =>
    have hc := h c List.mem_cons_self
    refine afterOpening_cons ?_ ?_ _
    all_goals
      rintro rfl
      simp [isPrintable] at hc

lemma read_eq_readLine (h : ¬['"', '"', '"'] <+: cs) (h' : ¬['\'', '\'', '\''] <+: cs) :
    read cs = readLine cs := by
  rw [read]
  · rintro t rfl
    exact h ⟨t, rfl⟩
  · rintro t rfl
    exact h' ⟨t, rfl⟩

lemma read_basic (cs rest : List Char) :
    read ('"' :: escapeAll 0 false 0 cs ++ ['"'] ++ '\n' :: rest) =
      some (String.ofList cs, '\n' :: rest) := by
  rw [List.append_assoc, List.cons_append, read_eq_readLine]
  · rw [List.singleton_append, readLine, basic_escapeAll]
    rfl
  · cases cs with
    | nil => simp [escapeAll]
    | cons c cs =>
      obtain ⟨d, t, heq, hd⟩ := escapeAll_eq_cons false cs (show ¬(c = '"' ∧ 0 < 0) by omega)
      simp [heq, hd.symm]
  · simp

lemma read_literal (h : ∀ c ∈ cs, c ≠ '\'' ∧ isPrintable c = true) (rest : List Char) :
    read ('\'' :: cs ++ ['\''] ++ '\n' :: rest) = some (String.ofList cs, '\n' :: rest) := by
  rw [List.append_assoc, List.cons_append, read_eq_readLine]
  · rw [List.singleton_append, readLine, literal_append h]
    rfl
  · simp
  · cases cs with
    | nil => simp
    | cons c cs =>
      have hc := (h c List.mem_cons_self).1
      simp [hc.symm]

lemma read_multilineBasic (h : lines = true ∨ '\n' ∉ cs) (rest : List Char) :
    read (triple '"' lines (escapeAll 2 true 0 cs) ++ '\n' :: rest) =
      some (String.ofList cs, '\n' :: rest) := by
  have hskip : afterOpening ((if lines then ['\n'] else []) ++
      (escapeAll 2 true 0 cs ++ '"' :: '"' :: '"' :: '\n' :: rest)) =
        escapeAll 2 true 0 cs ++ '"' :: '"' :: '"' :: '\n' :: rest := by
    cases lines with
    | true => rfl
    | false => exact afterOpening_escapeAll (h.resolve_left (by simp)) _
  simp only [triple, List.append_assoc, List.cons_append, List.nil_append] at hskip ⊢
  rw [read, hskip, multilineBasic_escapeAll]
  rfl

lemma read_multilineLiteral (hprint : ∀ c ∈ cs, isPrintable c = true ∨ c = '\n')
    (hruns : ¬['\'', '\'', '\''] <:+: cs) (h : lines = true ∨ '\n' ∉ cs) (rest : List Char) :
    read (triple '\'' lines cs ++ '\n' :: rest) = some (String.ofList cs, '\n' :: rest) := by
  have hskip : afterOpening ((if lines then ['\n'] else []) ++
      (cs ++ '\'' :: '\'' :: '\'' :: '\n' :: rest)) =
        cs ++ '\'' :: '\'' :: '\'' :: '\n' :: rest := by
    cases lines with
    | true => rfl
    | false =>
      refine afterOpening_append (fun c hc => (hprint c hc).resolve_right ?_) _
      rintro rfl
      exact h.resolve_left (by simp) hc
  simp only [triple, List.append_assoc, List.cons_append, List.nil_append] at hskip ⊢
  rw [read, hskip, multilineLiteral_append hprint hruns]
  rfl

/-- A string is read back from the front of a line. -/
lemma read_write (s : String) (rest : List Char) :
    read ((write s).toList ++ '\n' :: rest) = some (s, '\n' :: rest) := by
  have hprint (h : s.toList.any needsEscape = false) :
      ∀ c ∈ s.toList, isPrintable c = true ∨ c = '\n' := by
    simpa [needsEscape, or_iff_not_imp_left] using h
  have hlines : s.toList.contains '\n' = true ∨ '\n' ∉ s.toList := by simp [em]
  simp only [write, String.toList_ofList]
  split
  next => rw [read_basic, String.ofList_toList]
  next =>
    split
    next h =>
      obtain ⟨hcontrol, hapostrophes, hline⟩ := h
      rw [read_literal, String.ofList_toList]
      intro c hc
      refine ⟨?_, (hprint (by simpa using hcontrol) c hc).resolve_right ?_⟩
      · rintro rfl
        -- the form is chosen by the longest run of apostrophes
        have hlongest : 1 ≤ longestRun '\'' s.toList :=
          le_longestRun ((List.singleton_infix_iff _ _).mpr hc)
        omega
      · rintro rfl
        simp [hc] at hline
    next =>
      split
      next => rw [read_multilineBasic hlines, String.ofList_toList]
      next =>
        split
        next h =>
          rw [read_multilineLiteral (hprint (by simpa using h.1)) _ hlines, String.ofList_toList]
          intro hthree
          have hlongest : 3 ≤ longestRun '\'' s.toList := le_longestRun hthree
          omega
        next =>
          split
          · rw [read_multilineBasic hlines, String.ofList_toList]
          · rw [read_basic, String.ofList_toList]

end TwoPhaseCommit.Toml.Text
