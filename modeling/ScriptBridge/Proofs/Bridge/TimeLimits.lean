import Mathlib.Data.List.Induction
import ScriptBridge.Bridge.Session
/-!
The time limit of a session, and what it reports of it.

A session holds its time limit twice: as an aspect that is put around its fragments, and as the
number of seconds that it reports. The two agree, with the aspect before all others and the only one
that limits the time, in a session that is `Truthful`. A new session is, and so is every session on
which a limit has just been set. From then on it stays truthful exactly as long as no aspect is
added that is a time limit itself and the one that was set is not removed, since adding and removing
change the list of aspects alone (`Session.truthful_throughout_iff`).
-/
namespace ScriptBridge
namespace Session

/-- Whether an aspect limits the time. -/
def isLimit (a : Installed Aspect) : Bool := a.item.timeoutSeconds.isSome

/-- The aspects of a session that limit the time. -/
def limits (s : Session) : List (Installed Aspect) := s.aspects.filter isLimit

/-- The other aspects of a session. -/
def others (s : Session) : List (Installed Aspect) := s.aspects.filter fun a => !isLimit a

/-- A session with one time limit at most, which is the first of its aspects, and which it
reports. -/
structure Truthful (s : Session) : Prop where
  sole : s.limits.length ≤ 1
  first : ∀ a ∈ s.limits, s.aspects.head? = some a
  reported : ∀ a ∈ s.limits, ∀ seconds, a.item.timeoutSeconds = some seconds →
    s.reportedTimeout = seconds.toNat
  unlimited : s.limits = [] → s.reportedTimeout = -1

/-- What can be done with the aspects and the buffer of a session. -/
inductive Edit where
  | limit (handle : Nat) (seconds : Int32)
  | addAspect (aspect : Installed Aspect)
  | removeAspect (handle : Nat)
  | reset
  | flush

/-- A session and its bridge after an edit. -/
def Edit.apply : Edit → Session × Bridge → Session × Bridge
  | limit handle seconds, (s, b) => (s.setTimeout handle seconds, b)
  | addAspect aspect, (s, b) => (s.addAspect aspect, b)
  | removeAspect handle, (s, b) => ((s.removeAspect handle).2, b)
  | reset, (s, b) => b.resetSession s
  | flush, (s, b) => (b.flushSession s).2

/-- A session and its bridge after edits. -/
def edited (edits : List Edit) (start : Session × Bridge) : Session × Bridge :=
  edits.foldl (fun state edit => edit.apply state) start

/-- An edit adds a time limit as an aspect, or removes one that the session has. -/
def Edit.Disturbs (s : Session) : Edit → Prop
  | addAspect aspect => isLimit aspect = true
  | removeAspect handle => ∃ a ∈ s.limits, a.handle = handle
  | _ => False

/-- An edit does not remove an aspect. -/
def Edit.keeps (a : Installed Aspect) : Edit → Bool
  | removeAspect handle => a.handle != handle
  | _ => true

/-- The aspect that an edit adds, if that is not a time limit. -/
def Edit.adds : Edit → List (Installed Aspect)
  | addAspect a => [a].filter fun a => !isLimit a
  | _ => []

/-- None of the edits removes an aspect. -/
def remains (edits : List Edit) (a : Installed Aspect) : Bool := edits.all (Edit.keeps a)

/-- The aspects that edits add and do not remove again, without time limits. -/
def added : List Edit → List (Installed Aspect)
  | [] => []
  | edit :: later => edit.adds.filter (remains later) ++ added later

/-! ## Truthful sessions -/

section
variable {s other : Session} {a : Installed Aspect} {rest : List (Installed Aspect)}
  {seconds : UInt32}

theorem reportedTimeout_eq_iff : s.reportedTimeout = seconds.toNat ↔ s.timeout = some seconds := by
  unfold reportedTimeout
  cases s.timeout with
  | none => simp
  | some n => rw [Option.some.injEq, Int.natCast_inj, UInt32.toNat_inj]

theorem reportedTimeout_eq_neg_one_iff : s.reportedTimeout = -1 ↔ s.timeout = none := by
  unfold reportedTimeout
  cases s.timeout <;> simp

theorem truthful_unlimited_iff (unlimited : s.limits = []) : s.Truthful ↔ s.timeout = none := by
  rw [← reportedTimeout_eq_neg_one_iff]
  refine ⟨fun h => h.unlimited unlimited, fun reported => ⟨?_, ?_, ?_, fun _ => reported⟩⟩
  all_goals simp [unlimited]

theorem truthful_limited_iff (aspects : s.aspects = a :: rest)
    (limited : a.item.timeoutSeconds = some seconds) (alone : rest.filter isLimit = []) :
    s.Truthful ↔ s.timeout = some seconds := by
  have limits : s.limits = [a] := by
    rw [Session.limits, aspects, List.filter_cons_of_pos (by rw [isLimit, limited]; rfl), alone]
  rw [← reportedTimeout_eq_iff]
  refine ⟨fun h => h.reported a (by simp [limits]) seconds limited, fun reported => ⟨?_, ?_, ?_, ?_⟩⟩
  · simp [limits]
  · simp [limits, aspects]
  · simp [limits, limited, reported]
  · simp [limits]

/-- There are no other truthful sessions. -/
theorem Truthful.cases (h : s.Truthful) :
    (s.limits = [] ∧ s.timeout = none) ∨
      ∃ a rest seconds, s.aspects = a :: rest ∧ a.item.timeoutSeconds = some seconds ∧
        rest.filter isLimit = [] ∧ s.timeout = some seconds := by
  cases limits : s.limits with
  | nil => exact .inl ⟨rfl, (truthful_unlimited_iff limits).mp h⟩
  | cons a more =>
    have inside : a ∈ s.limits := by rw [limits]; exact List.mem_cons_self
    have limited := (List.mem_filter.mp inside).2
    obtain ⟨rest, aspects⟩ := List.head?_eq_some_iff.mp (h.first a inside)
    obtain ⟨seconds, set⟩ := Option.isSome_iff_exists.mp limited
    have sole : more = [] := by
      have sole := h.sole
      rw [limits, List.length_cons] at sole
      exact List.eq_nil_of_length_eq_zero (by omega)
    have alone : rest.filter isLimit = [] := by
      rw [Session.limits, aspects, List.filter_cons_of_pos limited] at limits
      rw [(List.cons.inj limits).2, sole]
    exact .inr ⟨a, rest, seconds, aspects, set, alone,
      reportedTimeout_eq_iff.mp (h.reported a inside seconds set)⟩

theorem truthful_new : ({} : Session).Truthful := (truthful_unlimited_iff rfl).mpr rfl

theorem Truthful.congr (h : s.Truthful) (aspects : other.aspects = s.aspects)
    (timeout : other.timeout = s.timeout) : other.Truthful := by
  rcases h.cases with ⟨unlimited, unset⟩ | ⟨a, rest, seconds, split, limited, alone, set⟩
  · refine (truthful_unlimited_iff ?_).mpr (timeout.trans unset)
    rw [limits, aspects]
    exact unlimited
  · exact (truthful_limited_iff (aspects.trans split) limited alone).mpr (timeout.trans set)

/-! ## One edit -/

theorem filter_isLimit_isNone (aspects : List (Installed Aspect)) :
    (aspects.filter (·.item.timeoutSeconds.isNone)).filter isLimit = [] := by
  rw [List.filter_filter, List.filter_eq_nil_iff]
  intro a _
  rw [isLimit]
  cases a.item.timeoutSeconds <;> simp

/-- After a time limit has been set or lifted, a session is truthful, whatever it was before. -/
theorem truthful_setTimeout (s : Session) (handle : Nat) (seconds : Int32) :
    (s.setTimeout handle seconds).Truthful := by
  have alone := filter_isLimit_isNone s.aspects
  unfold setTimeout
  dsimp only
  split
  · exact (truthful_limited_iff rfl rfl alone).mpr rfl
  · refine (truthful_unlimited_iff ?_).mpr rfl
    exact alone

theorem limits_addAspect (s : Session) (a : Installed Aspect) :
    (s.addAspect a).limits = s.limits ++ [a].filter isLimit := List.filter_append ..

theorem Truthful.addAspect_iff (h : s.Truthful) (a : Installed Aspect) :
    (s.addAspect a).Truthful ↔ ¬ isLimit a = true := by
  have limits := s.limits_addAspect a
  rcases h.cases with ⟨unlimited, unset⟩ | ⟨first, rest, seconds, aspects, limited, alone, set⟩
  · by_cases limit : isLimit a = true
    · -- the session has a limit and still reports none
      refine iff_of_false (fun after => ?_) (not_not_intro limit)
      obtain ⟨seconds, given⟩ := Option.isSome_iff_exists.mp limit
      have reported := after.reported a (by simp [limits, limit]) seconds given
      rw [reportedTimeout_eq_iff] at reported
      exact Option.some_ne_none _ (reported.symm.trans unset)
    · refine iff_of_true ((truthful_unlimited_iff ?_).mpr unset) limit
      simp [limits, unlimited, limit]
  · by_cases limit : isLimit a = true
    · -- there are two limits
      refine iff_of_false (fun after => ?_) (not_not_intro limit)
      have sole := after.sole
      rw [limits, Session.limits, aspects,
        List.filter_cons_of_pos (by rw [isLimit, limited]; rfl)] at sole
      simp [limit] at sole
    · have added : (s.addAspect a).aspects = first :: (rest ++ [a]) := by
        rw [addAspect, aspects]
        rfl
      refine iff_of_true ((truthful_limited_iff added limited ?_).mpr set) limit
      simp [alone, limit]

theorem limits_removeAspect (s : Session) (handle : Nat) :
    (s.removeAspect handle).2.limits = s.limits.filter (·.handle != handle) := by
  simp only [limits, removeAspect, removeInstalled, List.filter_filter, Bool.and_comm]

theorem Truthful.removeAspect_iff (h : s.Truthful) (handle : Nat) :
    (s.removeAspect handle).2.Truthful ↔ ¬ ∃ a ∈ s.limits, a.handle = handle := by
  have limits := s.limits_removeAspect handle
  rcases h.cases with ⟨unlimited, unset⟩ | ⟨a, rest, seconds, aspects, limited, alone, set⟩
  · refine iff_of_true ((truthful_unlimited_iff ?_).mpr unset) (by simp [unlimited])
    rw [limits, unlimited, List.filter_nil]
  · have limit : s.limits = [a] := by
      rw [Session.limits, aspects, List.filter_cons_of_pos (by rw [isLimit, limited]; rfl), alone]
    rw [limit] at limits ⊢
    by_cases same : a.handle = handle
    · -- the session has no limit any more and still reports one
      refine iff_of_false (fun after => ?_) (by simp [same])
      rw [truthful_unlimited_iff (by simp [limits, same])] at after
      exact Option.some_ne_none _ (set.symm.trans after)
    · have removed : (s.removeAspect handle).2.aspects =
          a :: rest.filter (·.handle != handle) := by
        rw [removeAspect, removeInstalled, aspects, List.filter_cons_of_pos (by simpa using same)]
      refine iff_of_true ((truthful_limited_iff removed limited ?_).mpr set) (by simp [same])
      have apart := List.filter_eq_nil_iff.mp alone
      exact List.filter_eq_nil_iff.mpr fun b hb => apart b (List.mem_filter.mp hb).1

theorem Truthful.apply_iff (h : s.Truthful) (b : Bridge) (edit : Edit) :
    (edit.apply (s, b)).1.Truthful ↔ ¬ edit.Disturbs s := by
  cases edit with
  | limit handle seconds => exact iff_of_true (s.truthful_setTimeout handle seconds) id
  | addAspect a => exact h.addAspect_iff a
  | removeAspect handle => exact h.removeAspect_iff handle
  | reset => exact iff_of_true (h.congr rfl rfl) id
  | flush => exact iff_of_true (h.congr rfl rfl) id

theorem not_isLimit_eq (a : Installed Aspect) : (!isLimit a) = a.item.timeoutSeconds.isNone := by
  rw [isLimit]
  cases a.item.timeoutSeconds <;> rfl

theorem others_setTimeout (s : Session) (handle : Nat) (seconds : Int32) :
    (s.setTimeout handle seconds).others = s.others := by
  have kept : (s.aspects.filter (·.item.timeoutSeconds.isNone)).filter (fun a => !isLimit a) =
      s.others := by
    simp only [others, not_isLimit_eq, List.filter_filter, Bool.and_self]
  unfold setTimeout others
  dsimp only
  split
  · rw [List.filter_cons_of_neg (by simp [isLimit, Aspect.timeout])]
    exact kept
  · exact kept

/-- An edit leaves the aspects that do not limit the time in their order. -/
theorem others_apply (s : Session) (b : Bridge) (edit : Edit) :
    (edit.apply (s, b)).1.others = s.others.filter (Edit.keeps · edit) ++ edit.adds := by
  cases edit with
  | limit handle seconds =>
    have unchanged : s.others.filter (Edit.keeps · (.limit handle seconds)) = s.others :=
      List.filter_eq_self.mpr fun _ _ => rfl
    rw [unchanged]
    exact (others_setTimeout ..).trans (List.append_nil _).symm
  | addAspect a => simp [Edit.apply, addAspect, others, Edit.keeps, Edit.adds]
  | removeAspect handle =>
    simp only [Edit.apply, removeAspect, removeInstalled, others, Edit.keeps, Edit.adds,
      List.filter_filter, List.append_nil, Bool.and_comm]
  | reset => simp [Edit.apply, Bridge.resetSession, others, Edit.keeps, Edit.adds]
  | flush => simp [Edit.apply, Bridge.flushSession, others, Edit.keeps, Edit.adds]

/-! ## Runs of edits -/

theorem edited_concat (edits : List Edit) (edit : Edit) (start : Session × Bridge) :
    edited (edits ++ [edit]) start = edit.apply (edited edits start) :=
  List.foldl_append ..

theorem remains_cons (edit : Edit) (later : List Edit) :
    remains (edit :: later) = fun a => remains later a && Edit.keeps a edit :=
  funext fun _ => Bool.and_comm ..

theorem others_edited (edits : List Edit) (s : Session) (b : Bridge) :
    (edited edits (s, b)).1.others = s.others.filter (remains edits) ++ added edits := by
  induction edits generalizing s b with
  | nil => exact ((List.append_nil _).trans (List.filter_eq_self.mpr fun _ _ => rfl)).symm
  | cons edit later ih =>
    calc (edited (edit :: later) (s, b)).1.others
      _ = (edited later (edit.apply (s, b))).1.others := rfl
      _ = (edit.apply (s, b)).1.others.filter (remains later) ++ added later := ih ..
      _ = (s.others.filter (Edit.keeps · edit)).filter (remains later) ++
          (edit.adds.filter (remains later) ++ added later) := by
        rw [others_apply, List.filter_append, List.append_assoc]
      _ = s.others.filter (remains (edit :: later)) ++ added (edit :: later) := by
        rw [List.filter_filter, remains_cons, added]

/-- A truthful session stays truthful through edits exactly as long as none of them disturbs it. -/
theorem Truthful.throughout_iff (h : s.Truthful) (b : Bridge) (edits : List Edit) :
    (∀ done, done <+: edits → (edited done (s, b)).1.Truthful) ↔
      ∀ done edit, done ++ [edit] <+: edits → ¬ edit.Disturbs (edited done (s, b)).1 := by
  constructor
  · intro truthful done edit reached
    have before := truthful done ((List.prefix_append ..).trans reached)
    have after := truthful _ reached
    rw [edited_concat] at after
    exact (before.apply_iff _ edit).mp after
  · intro undisturbed done
    -- from one beginning of the edits to the next
    induction done using List.reverseRecOn with
    | nil => exact fun _ => h
    | append_singleton done edit ih =>
      intro reached
      have before := ih ((List.prefix_append ..).trans reached)
      rw [edited_concat]
      exact (before.apply_iff _ edit).mpr (undisturbed done edit reached)

/-- A new session has at most one time limit, first among its aspects, and reports it, and so has
every session whose limit has just been set or lifted. From there on it is so through all edits
exactly as long as none of them adds a time limit as an aspect or removes the one that there is; and
the other aspects are in the order in which they were added, in any case. -/
theorem truthful_throughout_iff (s : Session) (b : Bridge) (edits : List Edit) :
    b.startSession.1.Truthful ∧
    (∀ handle seconds, (edited (edits ++ [.limit handle seconds]) (s, b)).1.Truthful) ∧
    (s.Truthful →
      ((∀ done, done <+: edits → (edited done (s, b)).1.Truthful) ↔
        ∀ done edit, done ++ [edit] <+: edits → ¬ edit.Disturbs (edited done (s, b)).1)) ∧
    (edited edits (s, b)).1.others = s.others.filter (remains edits) ++ added edits := by
  refine ⟨truthful_new, fun handle seconds => ?_, fun h => h.throughout_iff b edits,
    others_edited edits s b⟩
  rw [edited_concat]
  exact truthful_setTimeout ..

end

/-- The session that `startSession` gives has no time limit; one that is added to it as an aspect
limits the time of its fragments, but the session still reports that it has none. -/
theorem not_throughout_addAspect :
    (¬ ∀ done, done <+: [Edit.addAspect ⟨0, .timeout 3⟩] →
      (edited done ({}, Bridge.new (Config.default none) (.rehearsal []))).1.Truthful) ∧
    (addAspect ⟨0, .timeout 3⟩ {}).limits.map (·.item.timeoutSeconds) = [some 3] ∧
    (addAspect ⟨0, .timeout 3⟩ {}).reportedTimeout = -1 := by
  refine ⟨fun throughout => ?_, rfl, rfl⟩
  have undisturbed := ((truthful_throughout_iff {} _ _).2.2.1 truthful_new).mp throughout
  exact undisturbed [] (.addAspect ⟨0, .timeout 3⟩) List.prefix_rfl rfl

end Session
end ScriptBridge
