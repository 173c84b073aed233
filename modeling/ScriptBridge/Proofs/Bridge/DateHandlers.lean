import ScriptBridge.Proofs.Aspect.Nesting
import ScriptBridge.Proofs.Bridge.Batch
import ScriptBridge.Proofs.Text.Occurrences
/-!
How often a script defines the date handler.

The aspect that adds the handler looks at one fragment, but what is run is the concatenation of all
fragments that are pending. So a script defines the handler once for each of its fragments that
calls it (`dateHandler_per_fragment`): not at all if none does, once if one does, and twice or more
often, which the script language refuses, if several do.
-/
namespace ScriptBridge

open Text Aspect History

/-- What the definition of the date handler starts with. -/
def dateDefinition : List Char := "on createDate(".toList

/-- How often a script defines the date handler. -/
def definitions (script : String) : Nat := occurrences dateDefinition script.toList

/-- Whether a fragment calls the date handler. -/
def Fragment.callsDate (f : Fragment) : Bool := Text.contains f.text.toList dateCall.toList

/-- Whether a text is free of the words that the definition of the date handler starts with. -/
def IsPlain (text : String) : Prop := ¬ "on createDate".toList <:+: text.toList

/-- A fragment that is plain, with plain words around it. -/
structure Fragment.Plain (f : Fragment) : Prop where
  text : IsPlain f.text
  application : ∀ application, f.application = some application → IsPlain application
  before : ∀ aspects, f.session = some aspects → ∀ a ∈ aspects, ∀ words,
    a.before f.application f.text = some words → IsPlain words
  after : ∀ aspects, f.session = some aspects → ∀ a ∈ aspects, ∀ words,
    a.after f.application f.text = some words → IsPlain words

theorem IsPlain.definitions_eq {text : String} (h : IsPlain text) : definitions text = 0 := by
  have longer : "on createDate".toList <:+: dateDefinition := by decide
  exact occurrences_eq_zero fun hd => h (longer.trans hd)

/-! ## Lines -/

theorem definitions_skip {c : Char} (h : c ≠ 'o') (text : List Char) :
    occurrences dateDefinition (c :: text) = occurrences dateDefinition text := by
  refine occurrences_cons ?_ (by decide) text
  rw [show dateDefinition.head? = some 'o' from rfl]
  exact fun ho => h (Option.some.inj ho).symm

theorem definitions_line (indent : String) (hi : indent = "" ∨ indent = "  ") (text rest : String) :
    definitions (line indent text ++ rest) = definitions text + definitions rest := by
  have indented : occurrences dateDefinition (indent ++ text).toList = definitions text := by
    rcases hi with rfl | rfl
    · rw [String.empty_append]
      rfl
    · rw [String.toList_append]
      exact (definitions_skip (by decide) _).trans (definitions_skip (by decide) _)
  -- The definition holds no line end, so no occurrence reaches over one.
  have cut : (line indent text ++ rest).toList =
      (indent ++ text).toList ++ '\r' :: '\n' :: rest.toList := by
    rw [line, String.toList_append, String.toList_append (t := "\r\n"), List.append_assoc]
    rfl
  rw [definitions, cut, occurrences_append (by decide) (by decide), indented,
    definitions_skip (by decide)]
  rfl

theorem definitions_lines {words : List String} (h : ∀ w ∈ words, IsPlain w) (indent : String)
    (hi : indent = "" ∨ indent = "  ") (rest : String) :
    definitions (String.join (words.map (line indent)) ++ rest) = definitions rest := by
  induction words with
  | nil => rw [List.map_nil, String.join_nil, String.empty_append]
  | cons w words ih =>
    rw [List.forall_mem_cons] at h
    rw [List.map_cons, String.join_cons, String.append_assoc, definitions_line _ hi,
      h.1.definitions_eq, ih h.2, Nat.zero_add]

/-! ## Fragments -/

/-- A fragment inside the aspects of its session defines nothing. -/
theorem definitions_wrapInner {f : Fragment} (h : f.Plain) (rest : String) :
    definitions (wrapInner f.session f.application f.text ++ rest) = definitions rest := by
  cases hs : f.session with
  | none => rw [wrapInner, definitions_line _ (.inl rfl), h.text.definitions_eq, Nat.zero_add]
  | some aspects =>
    have before : ∀ w ∈ aspects.filterMap (·.before f.application f.text), IsPlain w := by
      intro w hw
      obtain ⟨a, ha, hw⟩ := List.mem_filterMap.mp hw
      exact h.before aspects hs a ha w hw
    have after : ∀ w ∈ aspects.reverse.filterMap (·.after f.application f.text), IsPlain w := by
      intro w hw
      obtain ⟨a, ha, hw⟩ := List.mem_filterMap.mp hw
      exact h.after aspects hs a (List.mem_reverse.mp ha) w hw
    rw [wrapInner, linesBefore, linesAfter, filterMap_line, filterMap_line, String.append_assoc,
      String.append_assoc, definitions_lines before _ (.inr rfl), definitions_line _ (.inr rfl),
      h.text.definitions_eq, Nat.zero_add, definitions_lines after _ (.inr rfl)]

theorem isPlain_tell {application : String} (h : IsPlain application) :
    IsPlain ("tell " ++ application) := by
  rw [IsPlain, String.toList_append]
  show ¬ _ <:+: 't' :: 'e' :: 'l' :: 'l' :: ' ' :: application.toList
  simp only [List.infix_cons_iff, not_or]
  exact ⟨by simp, by simp, by simp, by simp, by simp, h⟩

theorem defaults_before (f : Fragment) :
    linesBefore "" defaults f.application f.text =
      String.join ((f.application.map ("tell " ++ ·)).toList.map (line "")) := by
  rw [linesBefore, filterMap_line]
  cases f.application <;> rfl

theorem defaults_after (f : Fragment) :
    linesAfter "" defaults f.application f.text =
      String.join ((f.application.map fun _ => "end tell").toList.map (line "")) ++
        if f.callsDate then line "" dateHandler else "" := by
  have helper : dateHelper.after f.application f.text =
      if f.callsDate then some dateHandler else none := rfl
  rw [defaults, linesAfter_cons, linesAfter_cons, helper]
  congr 1
  · cases f.application <;> rfl
  · split <;> rfl

theorem definitions_dateHandler : definitions dateHandler = 1 := by
  unfold definitions dateHandler
  simp only [String.toList_append]
  decide +kernel

/-- Under the default global aspects a plain fragment defines the handler if it calls it. -/
theorem definitions_wrapped {f : Fragment} (hg : f.globals = defaults) (h : f.Plain)
    (rest : String) :
    definitions (f.wrapped ++ rest) = (if f.callsDate then 1 else 0) + definitions rest := by
  have before : ∀ w ∈ (f.application.map ("tell " ++ ·)).toList, IsPlain w := by
    intro w hw
    obtain ⟨application, ha, rfl⟩ := Option.map_eq_some_iff.mp (Option.mem_toList.mp hw)
    exact isPlain_tell (h.application application ha)
  have after : ∀ w ∈ (f.application.map fun _ => "end tell").toList, IsPlain w := by
    intro w hw
    obtain ⟨_, _, rfl⟩ := Option.map_eq_some_iff.mp (Option.mem_toList.mp hw)
    unfold IsPlain
    decide
  rw [Fragment.wrapped, wrap, hg, defaults_before, defaults_after, String.append_assoc,
    String.append_assoc, String.append_assoc, definitions_lines before _ (.inl rfl),
    definitions_wrapInner h, definitions_lines after _ (.inl rfl)]
  cases f.callsDate with
  | true =>
    rw [if_pos rfl, if_pos rfl, definitions_line _ (.inl rfl), definitions_dateHandler]
  | false =>
    rw [if_neg Bool.false_ne_true, if_neg Bool.false_ne_true, String.empty_append, Nat.zero_add]

/-! ## Scripts -/

theorem definitions_batchText {batch : List Fragment} (hg : ∀ f ∈ batch, f.globals = defaults)
    (h : ∀ f ∈ batch, f.Plain) :
    definitions (batchText batch) = batch.countP Fragment.callsDate := by
  induction batch with
  | nil => rfl
  | cons f batch ih =>
    rw [List.forall_mem_cons] at hg h
    have newline (rest : String) : definitions ("\n" ++ rest) = definitions rest := by
      rw [definitions, String.toList_append]
      exact definitions_skip (by decide) rest.toList
    rw [← List.singleton_append, batchText_append, batchText_singleton, Fragment.line,
      String.append_assoc, definitions_wrapped hg.1 h.1, newline, ih hg.2 h.2,
      List.singleton_append, List.countP_cons, Nat.add_comm]

/-- **A script defines the date handler once for each of its fragments that calls it.** This holds
of every script that a session of a bridge with the default aspects sends, the one that its commit
sends included, if its fragments are plain. -/
theorem dateHandler_per_fragment (b : Bridge) (handlers : List Handler) (steps : List Step)
    (hb : b.aspectList = defaults)
    (plain : ∀ f ∈ fragments (b.since ((Batch.start b handlers).run steps).bridge), f.Plain) :
    let last := (Batch.start b handlers).run steps
    ∃ batches : List (List Fragment), batches.flatten = fragments (b.since last.bridge) ∧
      scripts (b.since last.bridge) ++ scripts (last.bridge.since last.commit) =
        batches.map batchText ∧
      ∀ batch ∈ batches, definitions (batchText batch) = batch.countP Fragment.callsDate := by
  intro last
  obtain ⟨-, globals, -, -⟩ := Batch.session_stretch b handlers steps
  obtain ⟨batches, -, flat, sent⟩ := Batch.sent_in_batches b handlers steps
  refine ⟨batches, flat, sent, fun batch hbatch => ?_⟩
  have built : ∀ f ∈ batch, f ∈ fragments (b.since last.bridge) := fun f hf =>
    flat ▸ List.mem_flatten.mpr ⟨batch, hbatch, hf⟩
  exact definitions_batchText (fun f hf => (globals f (built f hf)).trans hb)
    fun f hf => plain f (built f hf)

/-! ## Two dates in one script -/

namespace Clock

/-- An application with a property that is a date. -/
def dictionary : Dictionary where
  interface := "Clock"
  classes := [{
    interface := "Clock"
    name := some "application"
    methods := [{
      name := "setAlarm"
      kind := .property
      scriptName := some "alarm"
      parameters := [{ valueType := .date }] }] }]

/-- A new bridge that knows the application. -/
def bridge : Bridge :=
  ((Bridge.new (Config.default none) (.rehearsal [])).register dictionary "Clock").2

def handler : Handler where
  object := { interface := "Clock", reference := .root "application \"Clock\"" }
  reduces := true

/-- 2 January 2020, 03:04:05. -/
def date : Value := .date { seconds := 1577934245 }

/-- The property set twice in one session. -/
def steps : List Step := [.call 0 (.invoke "setAlarm" [date]), .call 0 (.invoke "setAlarm" [date])]

def last : Batch := (Batch.start bridge [handler]).run steps

/-- What one of the calls builds. -/
def setting : Fragment where
  text := "set alarm to my createDate(2020, 1, 2, 3, 4, 5)"
  application := some "application \"Clock\""
  globals := defaults
  session := some []

theorem setting_plain : setting.Plain where
  text := by unfold IsPlain; decide +kernel
  application := by
    intro application h
    obtain rfl := Option.some.inj h
    unfold IsPlain
    decide +kernel
  before := by
    intro aspects h a ha
    obtain rfl := Option.some.inj h
    cases ha
  after := by
    intro aspects h a ha
    obtain rfl := Option.some.inj h
    cases ha

/-- The one script of the session defines the handler twice. -/
theorem defines_twice :
    bridge.aspectList = defaults ∧ (∀ f ∈ fragments (bridge.since last.bridge), f.Plain) ∧
      ∃ script, scripts (bridge.since last.bridge) ++ scripts (last.bridge.since last.commit) =
        [script] ∧ definitions script = 2 := by
  have built : fragments (bridge.since last.bridge) = [setting, setting] := by rfl
  have one : (scripts (bridge.since last.bridge) ++
      scripts (last.bridge.since last.commit)).length = 1 := by decide +kernel
  have plain : ∀ f ∈ fragments (bridge.since last.bridge), f.Plain := by
    rw [built]
    intro f hf
    obtain rfl : f = setting := by simpa using hf
    exact setting_plain
  obtain ⟨batches, flat, sent, counts⟩ := dateHandler_per_fragment bridge [handler] steps rfl plain
  obtain ⟨batch, rfl⟩ : ∃ batch, batches = [batch] := by
    rw [← List.length_eq_one_iff, ← List.length_map (f := batchText), ← sent]
    exact one
  rw [List.flatten_singleton] at flat
  obtain rfl : batch = [setting, setting] := flat.trans built
  refine ⟨rfl, plain, batchText [setting, setting], sent, ?_⟩
  rw [counts [setting, setting] (List.mem_singleton_self _)]
  decide +kernel

end Clock

end ScriptBridge
