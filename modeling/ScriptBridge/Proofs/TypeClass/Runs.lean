import Mathlib.Data.List.Induction
import ScriptBridge.Proofs.TypeClass.Table
/-!
Runs of requests to the intern table.

`ClassTable.ofRun` is the table after a run. What it holds under a text was described by a request
of the run that names no application and has both a name and a code, one of which is the text
(`exists_request`); and what it held under a text before is still there, unless a class was built
under that text as its code (`lookup_of_isPrefix`). So a name that is nobody's code leads to one and
the same class from the moment on at which it is cached (`cached_class_stays`).

The table is asked for the name before it matters whether the request names an application. A
request of an application adds nothing to the table, but it gets the class it describes only if its
name is not cached (`answer_owned`).
-/
namespace ScriptBridge

/-- In the requests of a run, no text is both a name and a code. -/
def ClassRequest.Unmixed (run : List ClassRequest) : Prop :=
  ∀ r ∈ run, ∀ other ∈ run, r.name.isSome → r.name ≠ other.code

theorem ClassRequest.Unmixed.code_ne {run : List ClassRequest} (h : Unmixed run)
    {r other : ClassRequest} (hr : r ∈ run) (ho : other ∈ run) {text : String}
    (named : r.name = some text) : other.code ≠ some text := by
  intro coded
  exact h r hr other ho (by simp [named]) (named.trans coded.symm)

namespace ClassTable

/-- The table after a run of requests. -/
def ofRun (run : List ClassRequest) : ClassTable := run.foldl (fun t r => (t.answer r).2) {}

section
variable {run earlier later : List ClassRequest} {r : ClassRequest} {key text : String}
  {c : InternedClass}

theorem ofRun_concat : ofRun (run ++ [r]) = ((ofRun run).answer r).2 := by
  rw [ofRun, List.foldl_append]
  rfl

/-- Everything that is cached was described by a request of the run. -/
theorem exists_request (found : (ofRun run).lookup key = some c) :
    ∃ r ∈ run, r.Caches key ∧ c.value = r.described := by
  induction run using List.reverseRecOn with
  | nil => cases found
  | append_singleton run r ih =>
    rw [ofRun_concat] at found
    rcases of_lookup_answer found with before | ⟨-, caches, rfl⟩
    · obtain ⟨r', inside, cached⟩ := ih before
      exact ⟨r', List.mem_append_left _ inside, cached⟩
    · exact ⟨r, List.mem_append_right _ List.mem_cons_self, caches, rfl⟩

/-- What is cached has a name and a code and belongs to no application, and its key is one of the
two. -/
theorem label_cached (found : (ofRun run).lookup key = some c) :
    c.value.label.name.isSome ∧ c.value.label.code.isSome ∧ c.value.label.application = none ∧
      (c.value.label.name = some key ∨ c.value.label.code = some key) := by
  obtain ⟨r, -, caches, same⟩ := exists_request found
  rw [same]
  exact ⟨caches.named, caches.coded, caches.unscoped, caches.key⟩

/-- What was cached under a key at one time is cached under it later, unless a class was built under
the key as its code. -/
theorem lookup_of_isPrefix (before : earlier <+: later)
    (found : (ofRun earlier).lookup key = some c) :
    (ofRun later).lookup key = some c ∨ (∃ r ∈ later, r.code = some key) ∧
      ∃ holder, (ofRun later).lookup key = some holder ∧ holder.value.label.code = some key := by
  obtain ⟨between, rfl⟩ := before
  induction between using List.reverseRecOn with
  | nil => rw [List.append_nil]; exact .inl found
  | append_singleton between r ih =>
    rw [← List.append_assoc, ofRun_concat]
    -- Whatever the key led to before the last request, that request replaced it at most.
    have last (c : InternedClass) (here : (ofRun (earlier ++ between)).lookup key = some c) :=
      lookup_answer_of_lookup (r := r) here
    have replaced (code : r.code = some key) :
        ∃ r' ∈ earlier ++ between ++ [r], r'.code = some key :=
      ⟨r, List.mem_append_right _ List.mem_cons_self, code⟩
    rcases ih with same | ⟨⟨r', inside, code'⟩, holder, held, code⟩
    · rcases last c same with same | ⟨code, held⟩
      · exact .inl same
      · exact .inr ⟨replaced code, _, held, code⟩
    · rcases last holder held with held | ⟨code, held⟩
      · exact .inr ⟨⟨r', List.mem_append_left _ inside, code'⟩, holder, held, code⟩
      · exact .inr ⟨replaced code, _, held, code⟩

theorem lookup_of_isPrefix_of_ne (before : earlier <+: later)
    (other : ∀ r ∈ later, r.code ≠ some key) (found : (ofRun earlier).lookup key = some c) :
    (ofRun later).lookup key = some c := by
  rcases lookup_of_isPrefix before found with same | ⟨⟨r, inside, code⟩, -⟩
  · exact same
  · exact absurd code (other r inside)

theorem exists_holder_of_isPrefix (before : earlier <+: later)
    (found : (ofRun earlier).lookup key = some c) (coded : c.value.label.code = some key) :
    ∃ holder, (ofRun later).lookup key = some holder ∧ holder.value.label.code = some key := by
  rcases lookup_of_isPrefix before found with same | ⟨-, replaced⟩
  · exact ⟨c, same, coded⟩
  · exact replaced

/-- A name that no request has as its code is cached exactly if some request asked for a class of
that name with a code and without an application. -/
theorem lookup_eq_none_iff (other : ∀ r ∈ run, r.code ≠ some text) :
    (ofRun run).lookup text = none ↔ ∀ r ∈ run, ¬ r.Caches text := by
  refine ⟨fun new r inside caches => ?_, fun none => ?_⟩
  · obtain ⟨before, after, rfl⟩ := List.append_of_mem inside
    have named := caches.key.resolve_right (other r inside)
    obtain ⟨c, found⟩ := exists_lookup_answer (t := ofRun before) caches named
    rw [← ofRun_concat] at found
    have isPrefix : before ++ [r] <+: before ++ r :: after := ⟨after, by simp⟩
    rw [lookup_of_isPrefix_of_ne isPrefix other found] at new
    cases new
  · cases found : (ofRun run).lookup text with
    | none => rfl
    | some c =>
      obtain ⟨r, inside, caches, -⟩ := exists_request found
      exact absurd caches (none r inside)

theorem serial_lt (found : (ofRun run).lookup key = some c) : c.serial < (ofRun run).next := by
  induction run using List.reverseRecOn generalizing key c with
  | nil => cases found
  | append_singleton run r ih =>
    rw [ofRun_concat] at found ⊢
    cases known : r.name.bind (ofRun run).lookup with
    | some cached =>
      rw [answer_known known] at found ⊢
      exact ih found
    | none =>
      rw [(answer_new known).2]
      rcases of_lookup_answer found with before | ⟨-, -, rfl⟩
      · exact Nat.lt_succ_of_lt (ih before)
      · exact Nat.lt_succ_self _

theorem answer_fresh_iff :
    (∀ key, (ofRun run).lookup key ≠ some ((ofRun run).answer r).1) ↔
      r.name.bind (ofRun run).lookup = none := by
  refine ⟨fun fresh => ?_, fun new key found => ?_⟩
  · by_contra cached
    obtain ⟨key, found⟩ := exists_lookup_of_cached cached
    exact fresh key found
  · -- A class that is built now has a higher number than all that are cached.
    have smaller := serial_lt found
    rw [(answer_new new).1] at smaller
    exact Nat.lt_irrefl _ smaller

theorem value_answer_owned_iff (owned : r.application ≠ none) :
    ((ofRun run).answer r).1.value = r.described ↔ r.name.bind (ofRun run).lookup = none := by
  refine ⟨fun given => ?_, fun new => by rw [(answer_new new).1]⟩
  by_contra cached
  obtain ⟨key, found⟩ := exists_lookup_of_cached cached
  obtain ⟨-, -, unscoped, -⟩ := label_cached found
  rw [given] at unscoped
  exact owned unscoped

end

/-- **Classes of an application.** After any run, a request that names an application leaves what is
cached as it is. It gets the class it describes exactly if its name is not cached, and exactly then
what it gets is not cached either. For a name that no request of the run has as its code this means
that none asked for a class of that name with a code and without an application. -/
theorem answer_owned (run : List ClassRequest) (r : ClassRequest) {application : String}
    (owned : r.application = some application) :
    ((ofRun run).answer r).2.entries = (ofRun run).entries ∧
      (((ofRun run).answer r).1.value = r.described ↔ r.name.bind (ofRun run).lookup = none) ∧
      ((∀ key, (ofRun run).lookup key ≠ some ((ofRun run).answer r).1) ↔
        r.name.bind (ofRun run).lookup = none) ∧
      ∀ text, r.name = some text → (∀ other ∈ run, other.code ≠ some text) →
        (((ofRun run).answer r).1.value = r.described ↔ ∀ other ∈ run, ¬ other.Caches text) := by
  have named : r.application ≠ none := by simp [owned]
  have given : ((ofRun run).answer r).1.value = r.described ↔
      r.name.bind (ofRun run).lookup = none := value_answer_owned_iff named
  refine ⟨entries_answer_owned named, given, answer_fresh_iff, ?_⟩
  intro text spelled other
  rw [given, spelled, Option.bind_some, lookup_eq_none_iff other]

namespace Tracks

/-- A folder and a track that belong to no application. -/
def run : List ClassRequest :=
  [{ name := some "folder", code := some "«class cfol»" },
    { name := some "track", code := some "«class cTrk»" }]

/-- The folder of an application. -/
def folder : ClassRequest where
  name := some "folder"
  code := some "«class cFol»"
  application := some "application \"Music\""

/-- The playlist of an application. -/
def playlist : ClassRequest := { folder with name := some "playlist" }

/-- The folder of the application comes out as that of no application, its playlist as described. -/
theorem folder_not_fresh :
    ((ofRun run).answer folder).2.entries = (ofRun run).entries ∧
      ((ofRun run).answer folder).1.value ≠ folder.described ∧
      ((ofRun run).answer folder).1.value = .builtin "folder" "cfol" ∧
      ((ofRun run).answer playlist).1.value = playlist.described := by
  obtain ⟨kept, given, -⟩ := answer_owned run folder rfl
  obtain ⟨-, given', -⟩ := answer_owned run playlist rfl
  refine ⟨kept, fun same => ?_, rfl, given'.mpr (by decide)⟩
  exact absurd (given.mp same) (by decide)

end Tracks

/-- **What is cached stays.** After any run, each cached class has a name and a code and belongs to
no application, and it is cached under its name or its code. If no text is both a name and a code in
the run, then a name that is cached at some time leads to the same class for the rest of the run,
and every request of that name without an application gets this class; and a code that is cached
leads to a class with that code. -/
theorem cached_class_stays (run : List ClassRequest) :
    (∀ key c, (ofRun run).lookup key = some c →
      c.value.label.name.isSome ∧ c.value.label.code.isSome ∧ c.value.label.application = none ∧
        (c.value.label.name = some key ∨ c.value.label.code = some key)) ∧
    (ClassRequest.Unmixed run → ∀ earlier later, earlier <+: later → later <+: run →
      ∀ text c, (ofRun earlier).lookup text = some c →
        ((∃ r ∈ run, r.name = some text) → (ofRun later).lookup text = some c ∧
          ∀ r : ClassRequest, r.name = some text → r.application = none →
            ((ofRun later).answer r).1 = c) ∧
        ((∃ r ∈ run, r.code = some text) → ∃ holder, (ofRun later).lookup text = some holder ∧
          holder.value.label.code = some text)) := by
  refine ⟨fun key c found => label_cached found, ?_⟩
  intro unmixed earlier later before within text c found
  refine ⟨fun isName => ?_, fun isCode => ?_⟩
  · obtain ⟨r, inside, named⟩ := isName
    have other : ∀ s ∈ later, s.code ≠ some text :=
      fun s hs => unmixed.code_ne inside (within.subset hs) named
    have stays := lookup_of_isPrefix_of_ne before other found
    refine ⟨stays, fun r' named' _ => ?_⟩
    rw [answer_known (by rw [named', Option.bind_some, stays])]
  · obtain ⟨r, inside, coded⟩ := isCode
    obtain ⟨maker, made, caches, same⟩ := exists_request found
    -- The text is no name, so it is as its code that the class was cached under it.
    have byCode : maker.code = some text := by
      refine caches.key.resolve_left fun named => ?_
      exact unmixed.code_ne (within.subset (before.subset made)) inside named coded
    exact exists_holder_of_isPrefix before found (by rw [same]; exact byCode)

namespace Tracks

/-- A class under another name that has the code of the folder. -/
def synonym : ClassRequest := { name := some "directory", code := some "«class cfol»" }

/-- The folder stays what it was under its name, and its code leads to a class with that code. -/
theorem folder_stays :
    ∃ c, (ofRun run).lookup "folder" = some c ∧
      (ofRun (run ++ [folder, synonym])).lookup "folder" = some c ∧
      ((ofRun (run ++ [folder, synonym])).answer { name := some "folder" }).1 = c ∧
      ∃ holder, (ofRun (run ++ [folder, synonym])).lookup "«class cfol»" = some holder ∧
        holder.value.label.code = some "«class cfol»" := by
  have unmixed : ClassRequest.Unmixed (run ++ [folder, synonym]) := by
    unfold ClassRequest.Unmixed
    decide
  have stays := (cached_class_stays (run ++ [folder, synonym])).2 unmixed run _
    (List.prefix_append _ _) (List.prefix_refl _)
  obtain ⟨name, -⟩ := stays "folder" _ rfl
  obtain ⟨-, code⟩ := stays "«class cfol»" _ rfl
  obtain ⟨same, again⟩ := name ⟨folder, by decide, rfl⟩
  exact ⟨_, rfl, same, again _ rfl rfl, code ⟨synonym, by decide, rfl⟩⟩

end Tracks
end ClassTable
end ScriptBridge
