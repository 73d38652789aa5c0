import LineBasic.Application
import LineBasic.Proofs.Number.Order
import LineBasic.Proofs.Number.Reading
import LineBasic.Proofs.Tree.Sentence

/-! The time that an `INPUT` waits. Whatever the environment and the options ask for, it is positive,
with one exception: a text that spells that it is not a number passes the check, because what is not a
number is not at most zero either. -/

namespace LineBasic

namespace Number

open Text

/-- Margins around a sign that may be missing and the letters of `nan` in either case. -/
def SpellsNaN (text : String) : Prop := ∃ sign negative word, Sign sign negative ∧
  trimBy isMargin text.toList = sign ++ word ∧ word.map Char.toLower = ['n', 'a', 'n']

lemma eq_of_dropUnderscores {last : Option Char} {cs ds : List Char}
    (h : dropUnderscores last cs = some ds) (hd : ∀ c ∈ ds, isDigit c = false)
    (hl : ∀ c ∈ last, isDigit c = false) : cs = ds := by
  induction cs generalizing last ds with
  | nil =>
    rw [dropUnderscores] at h
    split_ifs at h
    exact Option.some.inj h
  | cons c cs ih =>
    rw [dropUnderscores] at h
    split_ifs at h with hc hlast
    · -- An underscore stands behind a digit, and there is none.
      cases last with
      | none => simp at hlast
      | some d => simp [hl d rfl] at hlast
    · obtain ⟨ds, hds, rfl⟩ := Option.map_eq_some_iff.mp h
      obtain ⟨hc, hd⟩ := List.forall_mem_cons.mp hd
      rw [ih hds hd (by simpa using hc)]

lemma takeSign_eq (cs : List Char) : ∃ sign, Sign sign (takeSign cs).1 ∧ cs = sign ++ (takeSign cs).2 := by
  fun_cases takeSign cs with
  | case1 cs => exact ⟨_, .minus, rfl⟩
  | case2 cs => exact ⟨_, .plus, rfl⟩
  | case3 => exact ⟨_, .none, rfl⟩

lemma decimal?_isNaN {negative : Bool} {cs : List Char} {x : Float} (h : decimal? negative cs = some x) :
    x.isNaN = false := by
  simp only [decimal?] at h
  split_ifs at h
  obtain ⟨e, -, rfl⟩ := Option.map_eq_some_iff.mp h
  exact isNaN_ofDecimal _ _ _

lemma isNaN_notANumber : notANumber.isNaN = true := by decide +kernel

section Word

variable {sign word : List Char} {negative : Bool} (hs : Sign sign negative)
  (hw : word.map Char.toLower = ['n', 'a', 'n'])

include hs hw

lemma ne_of_mem_word {c d : Char} (hc : c ∈ sign ++ word) (hd : d.toLower = d)
    (hne : d ∉ ['+', '-', 'n', 'a']) : c ≠ d := by
  rintro rfl
  rcases List.mem_append.mp hc with hc | hc
  · cases hs with
    | none => cases hc
    | plus | minus => simp_all
  · have hm := List.mem_map_of_mem (f := Char.toLower) hc
    rw [hw, hd] at hm
    simp_all

lemma read?_of_word {text : String} (ht : trimBy isMargin text.toList = sign ++ word) :
    read? text = some notANumber := by
  have hu : '_' ∉ sign ++ word := fun hm => ne_of_mem_word hs hw hm (by decide) (by decide) rfl
  have hsign : takeSign (sign ++ word) = (negative, word) := by
    cases hs with
    | plus | minus => rfl
    | none =>
      obtain ⟨c, cs, rfl⟩ : ∃ c cs, word = c :: cs :=
        List.exists_cons_of_ne_nil (by rintro rfl; cases hw)
      have hc : c.toLower = 'n' := (List.cons.inj hw).1
      refine takeSign_of_ne ?_ ?_ cs
      · rintro rfl
        cases hc
      · rintro rfl
        cases hc
  simp only [read?, ht, dropUnderscores_of_not_mem hu (by simp : none ≠ some '_'), Option.bind_eq_bind,
    Option.bind_some, hsign, hw]
  rw [if_neg (by decide), if_pos (by decide)]

end Word

lemma read?_isNaN_iff {text : String} {x : Float} (h : read? text = some x) :
    x.isNaN = true ↔ SpellsNaN text := by
  constructor
  · intro hx
    obtain ⟨cs, hcs, h⟩ := Option.bind_eq_some_iff.mp h
    obtain ⟨sign, hs, hsplit⟩ := takeSign_eq cs
    dsimp only at h
    split_ifs at h with hinf hw
    · obtain rfl := Option.some.inj h
      cases hx.symm.trans (isNaN_ofBits _ le_rfl)
    · refine ⟨sign, _, _, hs, ?_, hw⟩
      rw [← hsplit]
      refine eq_of_dropUnderscores hcs (fun c hc => ?_) (by simp)
      rw [Bool.eq_false_iff]
      intro hd
      rw [hsplit] at hc
      refine ne_of_mem_word hs hw hc (toLower_of_isDigit hd) ?_ rfl
      rintro hm
      simp only [List.mem_cons, List.not_mem_nil, or_false] at hm
      rcases hm with rfl | rfl | rfl | rfl <;> cases hd
    · cases hx.symm.trans (decimal?_isNaN h)
  · rintro ⟨sign, negative, word, hs, ht, hw⟩
    obtain rfl := Option.some.inj ((read?_of_word hs hw ht).symm.trans h)
    exact isNaN_notANumber

end Number

namespace Settings

open Number (SpellsNaN)

variable {text : String} {x : Float}

lemma readTimeout_eq_ok_iff : readTimeout text = .ok x ↔ Number.read? text = some x ∧ ¬ x ≤ 0 := by
  rw [readTimeout]
  cases Number.read? text with
  | none => simp
  | some y =>
    by_cases hy : y ≤ 0
    · simp only [if_pos hy, Option.some.injEq, reduceCtorEq, false_iff]
      rintro ⟨rfl, hx⟩
      exact hx hy
    · simp only [if_neg hy, Except.ok.injEq, Option.some.injEq]
      refine ⟨?_, And.left⟩
      rintro rfl
      exact ⟨rfl, hy⟩

lemma not_le_zero_iff : ¬ x ≤ 0 ↔ x.isNaN = true ∨ 0 < x := by
  have hz : (0 : Float).isNaN = false := by decide +kernel
  rw [Number.not_le_iff, hz]
  simp

lemma readTimeout_positive (h : readTimeout text = .ok x) : (x.isNaN = true ↔ SpellsNaN text) ∧
    (0 < x ↔ ¬ SpellsNaN text) := by
  obtain ⟨hr, hx⟩ := readTimeout_eq_ok_iff.mp h
  have hn := Number.read?_isNaN_iff hr
  refine ⟨hn, ?_⟩
  rw [← hn]
  exact ⟨fun hp hx => Number.not_lt_of_isNaN hx hp, (not_le_zero_iff.mp hx).resolve_left⟩

/-- What the environment says of the timeout, where an empty text counts as none. -/
def environmentTimeout? (lookup : String → Option String) : Option String :=
  (lookup "MYBASIC_INPUT_TIMEOUT").filter (· ≠ "")

/-- The seconds that a text is read as, if there is one. -/
inductive Asks : Option String → Option Float → Prop
  | nothing : Asks none none
  | seconds {text : String} {x : Float} : readTimeout text = .ok x → Asks (some text) (some x)

def secondsValue (seconds : Option Float) : Value := (seconds.map Value.number).getD .absent

section Environment

variable {lookup : String → Option String} {s : Settings} {v : Value}

def environmentTimeout (lookup : String → Option String) : Except Problem Value :=
  match environmentTimeout? lookup with
  | none => .ok .absent
  | some text => (readTimeout text).map Value.number

lemma asks_of_environmentTimeout (h : environmentTimeout lookup = .ok v) :
    ∃ seconds, Asks (environmentTimeout? lookup) seconds ∧ v = secondsValue seconds := by
  rw [environmentTimeout] at h
  cases ht : environmentTimeout? lookup with
  | none =>
    rw [ht] at h
    cases h
    exact ⟨none, .nothing, rfl⟩
  | some text =>
    rw [ht] at h
    cases hr : readTimeout text with
    | error p => simp [hr, Except.map] at h
    | ok x =>
      simp only [hr, Except.map, Except.ok.injEq] at h
      exact ⟨some x, .seconds hr, h.symm⟩

lemma environmentTimeout_bind (next : Value → Except Problem Settings) :
    environmentTimeout lookup >>= next = match lookup "MYBASIC_INPUT_TIMEOUT" with
      | none => pure .absent >>= next
      | some "" => pure .absent >>= next
      | some text => (readTimeout text).map Value.number >>= next := by
  rw [environmentTimeout, environmentTimeout?]
  split
  · rename_i hn
    split
    · rfl
    · rfl
    · rename_i text hne hl
      exact absurd (by simpa [hl] using hn) hne
  · rename_i text ht
    obtain ⟨hl, hne⟩ := Option.filter_eq_some_iff.mp ht
    split
    · rename_i hl'
      cases hl'.symm.trans hl
    · rename_i hl'
      obtain rfl := Option.some.inj (hl'.symm.trans hl)
      simp at hne
    · rename_i hl'
      obtain rfl := Option.some.inj (hl'.symm.trans hl)
      rfl

lemma ofEnvironment_inputTimeout (h : ofEnvironment lookup = .ok s) :
    environmentTimeout lookup = .ok s.inputTimeout := by
  rw [ofEnvironment] at h
  split at h
  all_goals
    obtain ⟨logLevel, -, h⟩ := Grammar.bind_ok h
    obtain ⟨inputTimeout, ht, h⟩ := Grammar.bind_ok ((environmentTimeout_bind _).trans h)
    cases h
    exact ht

end Environment

end Settings

namespace Application

open Settings
open Number (SpellsNaN)

/-- The text that decides on the timeout: that of the option, or else that of the environment. -/
def decisive (lookup : String → Option String) (option : Option String) : Option String :=
  option <|> environmentTimeout? lookup

lemma configure_asks {lookup : String → Option String} {s : Settings} {option : Option String}
    {given : Option Float} {args : Arguments} (hs : ofEnvironment lookup = .ok s) (ho : Asks option given)
    (ha : args.inputTimeout = given.map .number) : ∃ seconds, Asks (decisive lookup option) seconds ∧
      (configure args s).inputTimeout = secondsValue seconds := by
  cases ho with
  | nothing =>
    obtain ⟨seconds, he, hv⟩ := asks_of_environmentTimeout (ofEnvironment_inputTimeout hs)
    exact ⟨seconds, he, by rw [← hv, configure, ha]; rfl⟩
  | @seconds text x hr => exact ⟨some x, .seconds hr, by rw [configure, ha]; rfl⟩

/-- A text that spells that it is not a number is accepted as a timeout, and otherwise just the positive
numbers are. So the timeout that the environment and an option lead to is positive, unless the text that
decides on it spells that it is not a number. -/
theorem timeout_positive_unless_nan (lookup : String → Option String) (option : Option String) :
    (∀ text, ¬ SpellsNaN text → ∀ x, readTimeout text = .ok x ↔ Number.read? text = some x ∧ 0 < x) ∧
    (∀ text, SpellsNaN text → ∃ x, readTimeout text = .ok x ∧ x.isNaN = true) ∧
    ∀ s, ofEnvironment lookup = .ok s → ∀ given, Asks option given →
      ∀ args : Arguments, args.inputTimeout = given.map .number →
        s.override? "input_timeout" (secondsValue given) =
          some { s with inputTimeout := (configure args s).inputTimeout } ∧
        ((configure args s).inputTimeout = .absent ∧ decisive lookup option = none ∨
          ∃ text x, decisive lookup option = some text ∧ readTimeout text = .ok x ∧
            (configure args s).inputTimeout = .number x ∧ (0 < x ↔ ¬ SpellsNaN text) ∧
            (x.isNaN = true ↔ SpellsNaN text)) := by
  refine ⟨fun text hn x => ?_, ?_, fun s hs given ho args ha => ⟨?_, ?_⟩⟩
  · rw [readTimeout_eq_ok_iff, not_le_zero_iff]
    refine and_congr_right fun hr => ?_
    rw [Number.read?_isNaN_iff hr, or_iff_right hn]
  · rintro text ⟨sign, negative, word, hsign, ht, hw⟩
    have hr := Number.read?_of_word hsign hw ht
    have hx := not_le_zero_iff.mpr (.inl Number.isNaN_notANumber)
    exact ⟨_, readTimeout_eq_ok_iff.mpr ⟨hr, hx⟩, Number.isNaN_notANumber⟩
  · cases given <;> simp [override?, secondsValue, Value.isAbsent, configure, ha, replace?]
  · obtain ⟨seconds, hd, hv⟩ := configure_asks hs ho ha
    generalize decisive lookup option = text at hd
    cases hd with
    | nothing => exact .inl ⟨hv, rfl⟩
    | seconds hr =>
      obtain ⟨hn, hp⟩ := readTimeout_positive hr
      exact .inr ⟨_, _, rfl, hr, hv, hp, hn⟩

def patient (name : String) : Option String :=
  if name = "MYBASIC_INPUT_TIMEOUT" then some " +2_0.5\t" else none

lemma patient_settings : ofEnvironment patient = .ok { inputTimeout := .number 20.5 } := rfl

theorem patient_waits : ofEnvironment patient = .ok { inputTimeout := .number 20.5 } ∧
    readTimeout "1e-3" = .ok 0.001 ∧
    (∃ x, (configure {} { inputTimeout := .number 20.5 }).inputTimeout = .number x ∧ 0 < x) ∧
    ∃ x, (configure { inputTimeout := some (.number 0.001) } { inputTimeout := .number 20.5 }).inputTimeout =
      .number x ∧ 0 < x := by
  have hn {text : String} {x : Float} (hr : Number.read? text = some x) (hx : x.isNaN = false) :
      ¬ SpellsNaN text := by
    rw [← Number.read?_isNaN_iff hr, hx]
    exact Bool.false_ne_true
  have hmilli : readTimeout "1e-3" = .ok 0.001 :=
    readTimeout_eq_ok_iff.mpr ⟨by decide +kernel, by decide +kernel⟩
  have hd : decisive patient none = some " +2_0.5\t" := by decide
  refine ⟨patient_settings, hmilli, ?_, ?_⟩
  · obtain ⟨-, -, h⟩ := timeout_positive_unless_nan patient none
    obtain ⟨-, ⟨-, hd'⟩ | ⟨text, x, hd', -, hx, hp, -⟩⟩ := h _ patient_settings none .nothing {} rfl
    · cases hd.symm.trans hd'
    · obtain rfl := Option.some.inj (hd.symm.trans hd')
      exact ⟨x, hx, hp.mpr (hn (x := 20.5) (by decide +kernel) (by decide +kernel))⟩
  · obtain ⟨-, -, h⟩ := timeout_positive_unless_nan patient (some "1e-3")
    obtain ⟨-, ⟨-, hd'⟩ | ⟨text, x, hd', -, hx, hp, -⟩⟩ := h _ patient_settings (some 0.001) (.seconds hmilli)
      { inputTimeout := some (.number 0.001) } rfl
    · cases hd'
    · obtain rfl := Option.some.inj hd'
      exact ⟨x, hx, hp.mpr (hn (x := 0.001) (by decide +kernel) (by decide +kernel))⟩

theorem nan_accepted_as_timeout : readTimeout "nan" = .ok Number.notANumber ∧
    (∃ s, plan ["--input-timeout", "nan"] (fun _ => none) = .interact s ∧
      s.inputTimeout = .number Number.notANumber) ∧ ¬ 0 < Number.notANumber :=
  ⟨rfl, ⟨_, rfl, rfl⟩, Number.not_lt_of_isNaN Number.isNaN_notANumber⟩

end Application

end LineBasic
