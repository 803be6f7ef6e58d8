import Mathlib.Algebra.BigOperators.Group.List.Basic
import Mathlib.Data.List.Nodup
import TwoPhaseCommit.Proofs.Quotation
import TwoPhaseCommit.Service.Config

/-!
# Settings that are written and read

Settings are written as a document of five lines, each with a key and a value. Such lines are read
one by one (`Toml.read_lines`), strings and numbers as they were written, so that the settings are
read back that were written (`ServiceConfig.ofText?_text`).
-/

namespace TwoPhaseCommit

namespace Toml

/-! ### Numbers -/

namespace Number

variable {cs : List Char} {n : Nat}

lemma isDigit_of_mem {c : Char} (h : c ∈ Nat.toDigits 10 n) : isDigit c = true := by
  have hdigit := Nat.isDigit_of_mem_toDigits (by decide) le_rfl h
  simpa [isDigit, Char.isDigit, Char.le_def] using hdigit

lemma digits?_eq_some (hne : cs ≠ []) (h : ∀ c ∈ cs, isDigit c = true) :
    digits? isDigit cs = some cs := by
  induction cs with
  | nil => exact absurd rfl hne
  | cons c cs ih =>
    rw [List.forall_mem_cons] at h
    cases cs with
    | nil => rw [digits?, if_pos h.1]
    | cons d ds =>
      have hd : d ≠ '_' := by
        rintro rfl
        exact absurd (h.2 '_' List.mem_cons_self) (by decide)
      rw [digits?, if_pos h.1, ih (by simp) h.2]
      · rfl
      · simp
      · exact fun _ heq => hd (List.cons.inj heq).1

/-- No digit is superfluous. -/
lemma head?_toDigits (h : (Nat.toDigits 10 n).head? = some '0') : n = 0 := by
  induction n using Nat.strong_induction_on with
  | _ n ih =>
    rw [Nat.toDigits_eq_if (by decide)] at h
    split at h
    next => simpa using h
    next hn =>
      rw [List.head?_append_of_ne_nil _ Nat.toDigits_ne_nil] at h
      have := ih (n / 10) (by omega) h
      omega

lemma whole?_toDigits (n : Nat) : whole? (Nat.toDigits 10 n) = some (Nat.toDigits 10 n) := by
  rw [whole?, digits?_eq_some Nat.toDigits_ne_nil fun c => isDigit_of_mem]
  refine if_neg ?_
  rintro ⟨hzero, hlength⟩
  rw [head?_toDigits hzero, Nat.toDigits_zero] at hlength
  simp at hlength

lemma ofDigits_toDigits (n : Nat) : ofDigits 10 (Nat.toDigits 10 n) = n := by
  have hall (cs : List Char) (h : ∀ c ∈ cs, isDigit c = true) :
      ofDigits 10 cs = Nat.ofDigitChars 10 cs 0 := by
    refine List.foldl_ext _ _ 0 fun m c hc => ?_
    have hdigit := h c hc
    rw [isDigit, Bool.and_eq_true, decide_eq_true_eq, decide_eq_true_eq] at hdigit
    rw [Hex.value?, if_pos hdigit, Option.getD_some]
  rw [hall _ fun c => isDigit_of_mem, Nat.ofDigitChars_ten_toDigits]

lemma sign_of_forall (h : ∀ c ∈ cs, isDigit c = true) : sign cs = (false, cs) := by
  rw [sign.eq_def]
  split
  next => exact absurd (h '+' List.mem_cons_self) (by decide)
  next => exact absurd (h '-' List.mem_cons_self) (by decide)
  next => rfl

lemma integer?_toDigits (h : n < 0x8000000000000000) :
    integer? (Nat.toDigits 10 n) = some (n : Int) := by
  have hdigits : ∀ c ∈ Nat.toDigits 10 n, isDigit c = true := fun c => isDigit_of_mem
  -- no second digit marks another base
  have hnone : ∀ c, isDigit c = false → ∀ d cs, Nat.toDigits 10 n ≠ d :: c :: cs := by
    intro c hc d cs heq
    rw [heq] at hdigits
    exact Bool.false_ne_true (hc.symm.trans (hdigits c (by simp)))
  have hinteger : anyInteger? (Nat.toDigits 10 n) = some (n : Int) := by
    rw [anyInteger?]
    · rw [sign_of_forall hdigits]
      dsimp only
      rw [whole?_toDigits]
      simp [ofDigits_toDigits]
    · exact fun cs => hnone 'x' (by decide) '0' cs
    · exact fun cs => hnone 'o' (by decide) '0' cs
    · exact fun cs => hnone 'b' (by decide) '0' cs
  have hrange : inRange n = true := by
    simp only [inRange, Bool.and_eq_true, decide_eq_true_eq]
    omega
  rw [integer?, hinteger, Option.filter_some_pos hrange]

end Number

/-! ### Digits are no time -/

namespace Moment

variable {cs : List Char}

lemma isDate_eq_false (h : ∀ c ∈ cs, Number.isDigit c = true) : isDate cs = false := by
  rw [isDate.eq_def]
  split
  next => exact absurd (h '-' (by simp)) (by decide)
  next => rfl

lemma afterTime?_eq_none (h : ∀ c ∈ cs, Number.isDigit c = true) : afterTime? cs = none := by
  rw [afterTime?.eq_def]
  split
  next => exact absurd (h ':' (by simp)) (by decide)
  next => rfl

end Moment

namespace Reader

variable {cs k text : List Char} {c d : Char} {v : Value}

/-! ### Steps of a reader -/

lemma run_span (p : Char → Bool) (h : ∀ c ∈ cs, p c = true) (hd : p d = false) (rest : List Char) :
    (span p).run (cs ++ d :: rest) = some (cs, d :: rest) := by
  have htake : (cs ++ d :: rest).takeWhile p = cs := by
    rw [List.takeWhile_append_of_pos h, List.takeWhile_cons_of_neg (by simp [hd]), List.append_nil]
  have hdrop : (cs ++ d :: rest).dropWhile p = d :: rest := by
    rw [List.dropWhile_append_of_pos h, List.dropWhile_cons_of_neg (by simp [hd])]
  change some ((cs ++ d :: rest).takeWhile p, (cs ++ d :: rest).dropWhile p) = _
  rw [htake, hdrop]

/-- Blanks are skipped. -/
lemma run_blanks (cs : List Char) (h : ∀ c ∈ cs, c = ' ') (hd : d ≠ ' ' ∧ d ≠ '\t')
    (rest : List Char) : blanks.run (cs ++ d :: rest) = some ((), d :: rest) := by
  have hspan : (span fun c => c == ' ' || c == '\t').run (cs ++ d :: rest) = some (cs, d :: rest) :=
    run_span _ (fun c hc => by simp [h c hc]) (by simp [hd]) rest
  change ((fun _ => ()) <$> span _).run _ = _
  rw [StateT.run_map, hspan]
  rfl

lemma run_next?_self (c : Char) (rest : List Char) :
    (next? c).run (c :: rest) = some (true, rest) := if_pos rfl

lemma run_next?_of_ne (h : d ≠ c) (rest : List Char) :
    (next? c).run (d :: rest) = some (false, d :: rest) := if_neg h

lemma run_char (c : Char) (rest : List Char) : (char c).run (c :: rest) = some ((), rest) := by
  rw [char, StateT.run_bind, run_next?_self]
  rfl

lemma run_endOfLine (rest : List Char) : endOfLine.run ('\n' :: rest) = some ((), rest) := by
  have hblanks : blanks.run ('\n' :: rest) = some ((), '\n' :: rest) :=
    run_blanks [] (by simp) (by decide) rest
  rw [endOfLine, StateT.run_bind, hblanks]
  rfl

/-! ### Lines -/

lemma run_key (hne : k ≠ []) (hk : ∀ c ∈ k, isKeyChar c = true) (hd : isKeyChar d = false)
    (rest : List Char) : key.run (k ++ d :: rest) = some (String.ofList k, d :: rest) := by
  obtain ⟨c, cs, rfl⟩ := List.exists_cons_of_ne_nil hne
  have hc := hk c List.mem_cons_self
  -- a key character is no quotation mark
  have hplain : key.run (c :: cs ++ d :: rest) = (do
      let cs ← span isKeyChar
      if cs.isEmpty then failure
      return String.ofList cs : Reader String).run (c :: cs ++ d :: rest) := by
    rw [key, StateT.run_bind, StateT.run_get, List.cons_append]
    simp only [Option.pure_def, Option.bind_eq_bind, Option.bind_some]
    split
    next heq =>
      obtain rfl := (List.cons.inj heq).1
      exact absurd hc (by decide)
    next heq =>
      obtain rfl := (List.cons.inj heq).1
      exact absurd hc (by decide)
    next => rfl
  rw [hplain, StateT.run_bind, run_span _ hk hd]
  rfl

lemma run_path (hne : k ≠ []) (hk : ∀ c ∈ k, isKeyChar c = true) (rest : List Char) :
    path.run (k ++ ' ' :: '=' :: rest) = some (([], String.ofList k), '=' :: rest) := by
  obtain ⟨c, cs, rfl⟩ := List.exists_cons_of_ne_nil hne
  have hc := hk c List.mem_cons_self
  have hstart : blanks.run (c :: cs ++ ' ' :: '=' :: rest) =
      some ((), c :: cs ++ ' ' :: '=' :: rest) :=
    run_blanks [] (by simp) ⟨by rintro rfl; exact absurd hc (by decide),
      by rintro rfl; exact absurd hc (by decide)⟩ _
  have hend : blanks.run (' ' :: '=' :: rest) = some ((), '=' :: rest) :=
    run_blanks [' '] (by simp) (by decide) rest
  have hparts : (parts maxDepth).run (c :: cs ++ ' ' :: '=' :: rest) =
      some ([String.ofList (c :: cs)], '=' :: rest) := by
    rw [maxDepth, parts]
    simp only [StateT.run_bind, hstart, run_key hne hk (show isKeyChar ' ' = false by decide), hend,
      run_next?_of_ne (show '=' ≠ '.' by decide), Option.bind_eq_bind, Option.bind_some]
    rfl
  rw [path, StateT.run_bind, hparts]
  rfl

/-- A text without blanks in front is read as a value at the end of a line. -/
structure Spells (text : List Char) (v : Value) : Prop where
  head : ∃ c cs, text = c :: cs ∧ c ≠ ' ' ∧ c ≠ '\t'
  run (rest : List Char) : (value maxDepth).run (text ++ '\n' :: rest) = some (v, '\n' :: rest)

lemma run_pair (hne : k ≠ []) (hk : ∀ c ∈ k, isKeyChar c = true) (hv : Spells text v)
    (rest : List Char) :
    (pair (value maxDepth)).run (k ++ ' ' :: '=' :: ' ' :: (text ++ '\n' :: rest)) =
      some (([], String.ofList k, v), '\n' :: rest) := by
  obtain ⟨c, cs, rfl, hc⟩ := hv.head
  have hbefore : blanks.run (' ' :: (c :: cs ++ '\n' :: rest)) =
      some ((), c :: cs ++ '\n' :: rest) := run_blanks [' '] (by simp) hc _
  have hbehind : blanks.run ('\n' :: rest) = some ((), '\n' :: rest) :=
    run_blanks [] (by simp) (by decide) rest
  rw [pair]
  simp only [StateT.run_bind, run_path hne hk, run_char, hbefore, hv.run, hbehind,
    Option.bind_eq_bind, Option.bind_some]
  rfl

/-- A key with a value, on a line of its own. -/
structure Line where
  key : String
  text : List Char
  value : Value

namespace Line

def chars (l : Line) : List Char :=
  l.key.toList ++ ' ' :: '=' :: ' ' :: (l.text ++ ['\n'])

/-- The key is written as it is, and the text spells the value. -/
structure Good (l : Line) : Prop where
  key_ne : l.key ≠ ""
  key_char : ∀ c ∈ l.key.toList, isKeyChar c = true
  spells : Spells l.text l.value

def statement (l : Line) : Statement := .pair [] l.key l.value

variable {l : Line}

lemma Good.toList_ne (h : l.Good) : l.key.toList ≠ [] := mt String.toList_eq_nil_iff.mp h.key_ne

lemma Good.chars_eq_cons (h : l.Good) : ∃ c cs, l.chars = c :: cs ∧ isKeyChar c = true := by
  obtain ⟨c, cs, hcs⟩ := List.exists_cons_of_ne_nil h.toList_ne
  exact ⟨c, _, by rw [chars, hcs, List.cons_append], h.key_char c (by simp [hcs])⟩

end Line

lemma run_statements_cons {l : Line} (hl : l.Good) (fuel : Nat) (rest : List Char) :
    (statements (fuel + 1)).run (l.chars ++ rest) =
      ((statements fuel).run rest).map fun p => (l.statement :: p.1, p.2) := by
  have hchars : l.chars ++ rest =
      l.key.toList ++ ' ' :: '=' :: ' ' :: (l.text ++ '\n' :: rest) := by
    simp [Line.chars]
  obtain ⟨c, cs, hcs, hc⟩ := hl.chars_eq_cons
  -- a line begins with its key: it is no comment, no empty line and no table
  have hfront : ∀ d, isKeyChar d = false → ∀ t, l.chars ++ rest ≠ d :: t := by
    intro d hd t heq
    rw [hcs] at heq
    rw [(List.cons.inj heq).1, hd] at hc
    cases hc
  have hblanks : blanks.run (l.chars ++ rest) = some ((), l.chars ++ rest) := by
    rw [hcs]
    refine run_blanks [] (by simp) ⟨?_, ?_⟩ (cs ++ rest)
    · rintro rfl
      exact absurd hc (by decide)
    · rintro rfl
      exact absurd hc (by decide)
  have hpair := run_pair hl.toList_ne hl.key_char hl.spells rest
  rw [← hchars, String.ofList_toList] at hpair
  have hline : (statements (fuel + 1)).run (l.chars ++ rest) = (do
      let p ← pair (value maxDepth)
      endOfLine
      return .pair p.1 p.2.1 p.2.2 :: (← statements fuel) : Reader (List Statement)).run
        (l.chars ++ rest) := by
    rw [statements, StateT.run_bind, hblanks]
    simp only [Option.bind_eq_bind, Option.bind_some, StateT.run_bind, StateT.run_get,
      Option.pure_def]
    split
    next heq => simp [hchars] at heq
    next heq => exact absurd heq (hfront '#' (by decide) _)
    next heq => exact absurd heq (hfront '\n' (by decide) _)
    next heq => exact absurd heq (hfront '\r' (by decide) _)
    next heq => exact absurd heq (hfront '[' (by decide) _)
    next => rfl
  rw [hline]
  simp only [StateT.run_bind, hpair, run_endOfLine, Option.bind_eq_bind, Option.bind_some]
  cases (statements fuel).run rest <;> rfl

lemma run_statements {ls : List Line} (h : ∀ l ∈ ls, l.Good) {fuel : Nat} (hf : ls.length < fuel) :
    (statements fuel).run (ls.flatMap Line.chars) = some (ls.map Line.statement, []) := by
  induction ls generalizing fuel with
  | nil =>
    cases fuel with
    | zero => simp at hf
    | succ fuel => rfl
  | cons l ls ih =>
    rw [List.forall_mem_cons] at h
    cases fuel with
    | zero => simp at hf
    | succ fuel =>
      rw [List.flatMap_cons, run_statements_cons h.1, ih h.2 (by simpa using hf)]
      rfl

/-! ### Values -/

lemma quote_of_read {s : String} {rest : List Char} (h : Text.read cs = some (s, rest)) :
    ∃ q t, cs = q :: t ∧ (q = '"' ∨ q = '\'') := by
  rw [Text.read.eq_def] at h
  split at h
  next => exact ⟨_, _, rfl, .inl rfl⟩
  next => exact ⟨_, _, rfl, .inr rfl⟩
  next =>
    rw [Text.readLine.eq_def] at h
    split at h
    next => exact ⟨_, _, rfl, .inl rfl⟩
    next => exact ⟨_, _, rfl, .inr rfl⟩
    next => cases h

lemma run_value_of_read {s : String} {rest : List Char} (h : Text.read cs = some (s, rest)) :
    (value maxDepth).run cs = some (.string s, rest) := by
  have hvalue : (value maxDepth).run cs = StateT.map Value.string Text.read cs := by
    obtain ⟨q, t, rfl, rfl | rfl⟩ := quote_of_read h <;> rfl
  rw [hvalue, StateT.map, h]
  rfl

lemma spells_string (s : String) : Spells (Text.write s).toList (.string s) := by
  refine ⟨?_, fun rest => run_value_of_read (Text.read_write s rest)⟩
  obtain ⟨q, t, heq, hq⟩ := quote_of_read (Text.read_write s [])
  cases hs : (Text.write s).toList with
  | nil =>
    rw [hs] at heq
    rw [← (List.cons.inj heq).1] at hq
    exact absurd hq (by decide)
  | cons c cs =>
    rw [hs] at heq
    obtain rfl := (List.cons.inj heq).1
    exact ⟨c, cs, rfl, by rcases hq with rfl | rfl <;> decide⟩

lemma scalar?_toDigits {n : Nat} (h : n < 0x8000000000000000) :
    scalar? (Nat.toDigits 10 n) = some (.integer n) := by
  have hdigits : ∀ c ∈ Nat.toDigits 10 n, Number.isDigit c = true := fun c => Number.isDigit_of_mem
  have htime : Moment.isTime (Nat.toDigits 10 n) = false := by
    rw [Moment.isTime, Moment.afterTime?_eq_none hdigits]
    rfl
  have hdateTime : Moment.isDateTime (Nat.toDigits 10 n) = false := by
    rw [Moment.isDateTime, Moment.isDate_eq_false fun c hc => hdigits c (List.mem_of_mem_take hc)]
    rfl
  have hword : ∀ s : String, s.toList.all Number.isDigit = false →
      Nat.toDigits 10 n ≠ s.toList := by
    intro s hs heq
    rw [← heq] at hs
    exact Bool.false_ne_true (hs.symm.trans (List.all_eq_true.mpr hdigits))
  rw [scalar?, if_neg (hword "true" (by decide)), if_neg (hword "false" (by decide)),
    Moment.isDate_eq_false hdigits, htime, hdateTime, Number.integer?_toDigits h]
  rfl

lemma isScalarChar_of_isDigit (h : Number.isDigit c = true) : isScalarChar c = true := by
  have hdigit : c.isDigit = true := by
    simpa [Number.isDigit, Char.isDigit, Char.le_def] using h
  simp [isScalarChar, Char.isAlphanum, hdigit]

lemma spells_integer {n : Nat} (h : n < 0x8000000000000000) :
    Spells (toString n).toList (.integer n) := by
  have hdigits : ∀ c ∈ Nat.toDigits 10 n, Number.isDigit c = true := fun c => Number.isDigit_of_mem
  rw [Nat.toString_eq_ofList_toDigits, String.toList_ofList]
  obtain ⟨c, cs, hcs⟩ := List.exists_cons_of_ne_nil (Nat.toDigits_ne_nil (n := n) (b := 10))
  have hne : ∀ d, Number.isDigit d = false → c ≠ d := by
    rintro d hd rfl
    exact Bool.false_ne_true (hd.symm.trans (hdigits c (by simp [hcs])))
  refine ⟨⟨c, cs, hcs, hne ' ' (by decide), hne '\t' (by decide)⟩, fun rest => ?_⟩
  -- what begins with a digit is a scalar
  have hvalue : (value maxDepth).run (Nat.toDigits 10 n ++ '\n' :: rest) =
      scalar.run (Nat.toDigits 10 n ++ '\n' :: rest) := by
    rw [maxDepth, value, StateT.run_bind, StateT.run_get]
    simp only [Option.bind_eq_bind, Option.bind_some, Option.pure_def, hcs, List.cons_append]
    split
    next heq => exact absurd (List.cons.inj heq).1 (hne '"' (by decide))
    next heq => exact absurd (List.cons.inj heq).1 (hne '\'' (by decide))
    next heq => exact absurd (List.cons.inj heq).1 (hne '[' (by decide))
    next heq => exact absurd (List.cons.inj heq).1 (hne '\x7b' (by decide))
    next => rfl
  have hspan := run_span isScalarChar (fun c hc => isScalarChar_of_isDigit (hdigits c hc))
    (show isScalarChar '\n' = false by decide) rest
  rw [hvalue, scalar, StateT.run_bind, hspan]
  simp only [Option.bind_eq_bind, Option.bind_some, Moment.isDate_eq_false hdigits,
    scalar?_toDigits h]
  rfl

end Reader

namespace Document

lemma add_statement {l : Reader.Line} {es : Entries} (h : l.key ∉ es.map Prod.fst) :
    add ⟨es, []⟩ l.statement = some ⟨es ++ [(l.key, l.value)], []⟩ := by
  have hnew : es.has l.key = false := by
    rw [Entries.has, List.any_eq_false]
    rintro e he heq
    exact h (beq_iff_eq.mp heq ▸ List.mem_map_of_mem he)
  simp [Reader.Line.statement, add, Entries.update, Entries.insert, hnew]

/-- Lines with different keys are the entries of a document. -/
lemma build?_lines {ls : List Reader.Line} (h : (ls.map (·.key)).Nodup) :
    build? (ls.map Reader.Line.statement) = some (ls.map fun l => (l.key, l.value)) := by
  suffices hfold : ∀ es : Entries, (es.map Prod.fst ++ ls.map (·.key)).Nodup →
      (ls.map Reader.Line.statement).foldlM add ⟨es, []⟩ =
        some ⟨es ++ ls.map fun l => (l.key, l.value), []⟩ by
    rw [build?, hfold [] h]
    rfl
  clear h
  induction ls with
  | nil => simp
  | cons l ls ih =>
    intro es h
    rw [List.map_cons, List.nodup_middle, List.nodup_cons] at h
    have hrest := ih (es ++ [(l.key, l.value)]) (by
      simpa [List.append_assoc] using List.nodup_middle.mpr (List.nodup_cons.mpr h))
    rw [List.map_cons, List.foldlM_cons, add_statement fun hl => h.1 (List.mem_append_left _ hl)]
    simpa [List.append_assoc] using hrest

end Document

/-- A document of lines with different keys is read as their values. -/
lemma read_lines {s : String} {ls : List Reader.Line} (hs : s.toList = ls.flatMap Reader.Line.chars)
    (hl : ∀ l ∈ ls, l.Good) (hkeys : (ls.map (·.key)).Nodup) :
    read s = some (ls.map fun l => (l.key, l.value)) := by
  have hmark : withoutMark s.toList = s.toList := by
    rw [withoutMark.eq_def]
    split
    next heq =>
      rw [hs] at heq
      cases ls with
      | nil => cases heq
      | cons l ls =>
        obtain ⟨c, cs, hcs, hc⟩ := (hl l List.mem_cons_self).chars_eq_cons
        rw [List.flatMap_cons, hcs] at heq
        obtain rfl := (List.cons.inj heq).1
        exact absurd hc (by decide)
    next => rfl
  -- every line has a character, so that there is fuel for all of them
  have hfuel : ls.length < s.toList.length + 1 := by
    have hlong := List.length_le_sum_of_one_le (ls.map fun l => l.chars.length) (by
      simp only [List.forall_mem_map]
      intro l hmem
      obtain ⟨c, cs, hcs, -⟩ := (hl l hmem).chars_eq_cons
      simp [hcs])
    rw [List.length_map] at hlong
    rw [hs, List.length_flatMap]
    omega
  have hstatements : Reader.statements (s.toList.length + 1) s.toList =
      some (ls.map Reader.Line.statement, []) := by
    have hrun := Reader.run_statements hl hfuel
    rwa [← hs] at hrun
  rw [read, hmark, hstatements]
  exact Document.build?_lines hkeys

end Toml

/-! ### Settings -/

namespace ServiceConfig

open Toml

variable {c : ServiceConfig} {t : String}

/-- The lines of written settings. -/
def lines (c : ServiceConfig) : List Reader.Line :=
  [⟨"durability", (Text.write c.durability.name).toList, .string c.durability.name⟩,
    ⟨"log_file", (Text.write c.logFile).toList, .string c.logFile⟩,
    ⟨"default_timeout_secs", (toString c.defaultTimeoutSecs).toList, .integer c.defaultTimeoutSecs⟩,
    ⟨"max_active", (toString c.maxActive).toList, .integer c.maxActive⟩,
    ⟨"reaper_interval_ms", (toString c.reaperIntervalMs).toList, .integer c.reaperIntervalMs⟩]

lemma exists_text (h : c.text = some t) :
    (∀ n ∈ [c.defaultTimeoutSecs, c.maxActive, c.reaperIntervalMs], n ≤ maxCount) ∧
      t.toList = c.lines.flatMap Reader.Line.chars := by
  rw [text] at h
  split at h
  next hall =>
    refine ⟨by simpa using hall, ?_⟩
    obtain rfl := Option.some.inj h
    simp [lines, Reader.Line.chars, String.join]
  next => cases h

lemma good_lines (h : ∀ n ∈ [c.defaultTimeoutSecs, c.maxActive, c.reaperIntervalMs], n ≤ maxCount) :
    ∀ l ∈ c.lines, l.Good := by
  have hgood (key : String) {text : List Char} {v : Value} (hne : key ≠ "")
      (hkey : key.toList.all Reader.isKeyChar = true) (hv : Reader.Spells text v) :
      Reader.Line.Good ⟨key, text, v⟩ := ⟨hne, List.all_eq_true.mp hkey, hv⟩
  have hinteger {n : Nat} (hn : n ≤ maxCount) : Reader.Spells (toString n).toList (.integer n) :=
    Reader.spells_integer (Nat.lt_succ_of_le hn)
  simp only [List.forall_mem_cons] at h
  obtain ⟨htimeout, hactive, hreaper, -⟩ := h
  simp only [lines, List.forall_mem_cons]
  exact ⟨hgood _ (by decide) (by decide) (Reader.spells_string _),
    hgood _ (by decide) (by decide) (Reader.spells_string _),
    hgood _ (by decide) (by decide) (hinteger htimeout),
    hgood _ (by decide) (by decide) (hinteger hactive),
    hgood _ (by decide) (by decide) (hinteger hreaper), by simp⟩

/-- Settings are read as they were written. -/
lemma ofText?_text (h : c.text = some t) : ofText? t = some c := by
  obtain ⟨hcounts, hchars⟩ := exists_text h
  have hkeys : (c.lines.map (·.key)).Nodup := by
    simp only [lines, List.map_cons, List.map_nil]
    decide
  have hmode : mode? (.string c.durability.name) = some c.durability := by
    cases c.durability <;> rfl
  have hcount (n : Nat) : count? (.integer n) = some n := by simp [count?]
  rw [ofText?, read_lines hchars (good_lines hcounts) hkeys]
  simp [lines, ofEntries?, field, List.lookup_cons, hmode, hcount, text?]

end ServiceConfig

end TwoPhaseCommit
