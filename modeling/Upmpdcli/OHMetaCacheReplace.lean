import Upmpdcli.OHMetaCache

set_option autoImplicit false

/- The worker which saves the metadata cache, one operation of the file system at a time. -/
namespace Upmpdcli

namespace OHMetaCache

/-- An `ofstream`: what is in its file, and what waits in its buffer. -/
structure Output where
  file : Bytes := []
  waiting : Bytes := []
  bad : Bool := false
deriving DecidableEq

namespace Output

/-- So many of the bytes which wait get into the file. -/
def put (output : Output) (count : Nat) (failed : Bool) : Output where
  file := output.file ++ output.waiting.take count
  waiting := output.waiting.drop count
  bad := failed

/-- `operator<<`, which does nothing behind an error. -/
def insert (output : Output) (text : Bytes) (count : Nat) (failed : Bool) : Output :=
  if output.bad then output
  else { output with waiting := output.waiting ++ text }.put count failed

/-- Everything gets into the file, or there is an error behind some bytes. -/
def flush (output : Output) (failed : Option Nat) : Output :=
  if output.bad then output
  else
    match failed with
    | none => output.put output.waiting.length false
    | some count => output.put count true

/-- Every byte which was put into the stream, and not lost. -/
def all (output : Output) : Bytes := output.file ++ output.waiting

@[simp] theorem all_put (output : Output) (count : Nat) (failed : Bool) :
    (output.put count failed).all = output.all := by
  unfold all put
  rw [List.append_assoc, List.take_append_drop]

theorem all_insert {output : Output} (good : output.bad = false) (text : Bytes) (count : Nat)
    (failed : Bool) : (output.insert text count failed).all = output.all ++ text := by
  unfold insert
  rw [good, if_neg Bool.false_ne_true, all_put]
  exact (List.append_assoc ..).symm

@[simp] theorem all_flush (output : Output) (failed : Option Nat) :
    (output.flush failed).all = output.all := by
  unfold flush
  split
  · rfl
  · cases failed with
    | none => exact all_put output _ false
    | some count => exact all_put output count true

/-- Nothing waits behind a flush without an error. -/
theorem waiting_flush {output : Output} {failed : Option Nat}
    (good : (output.flush failed).bad = false) : (output.flush failed).waiting = [] := by
  unfold flush at good ⊢
  split
  · rename_i bad
    rw [if_pos bad, bad] at good
    cases good
  · rename_i fine
    rw [if_neg fine] at good
    cases failed with
    | none => exact List.drop_length
    | some count => cases good

end Output

/-- The texts which the loop puts into the stream. -/
def pieces (cache : Cache) : List Bytes :=
  cache.flatMap fun entry => [encode entry.1, [byte '='], encode entry.2, [byte '\n']]

theorem flatten_pieces (cache : Cache) : (pieces cache).flatten = saved cache := by
  induction cache with
  | nil => rfl
  | cons entry cache ih =>
      unfold pieces at ih ⊢
      rw [List.flatMap_cons, List.flatten_append, ih, saved, line]
      simp

end OHMetaCache

open OHMetaCache

/-- Where the worker is with its task. -/
inductive SavePhase
  | idle
  | writing (cache : Cache) (rest : List Bytes) (output : Output)
  | flushed (cache : Cache) (output : Output)
  | closing (cache : Cache) (output : Output) (renamed : Bool)
deriving DecidableEq

/-- The worker and its files. `given` and `replacements` are for the properties only: the caches of
the tasks, and the saves which have replaced the file, with whether they had met an error. -/
structure SaveDisk where
  phase : SavePhase := .idle
  file : Option Bytes := none
  temporary : Option Bytes := none
  given : List Cache := []
  replacements : List (Cache × Bool) := []
deriving DecidableEq

/-- The next operation, with what becomes of it. -/
inductive SaveAct
  | take (cache : Cache) (opened : Bool)
  | write (count : Nat) (failed : Bool)
  | flush (failed : Option Nat)
  | rename (done : Bool)
  /-- The end of the block, where the stream is closed. -/
  | close (count : Nat)

namespace SaveDisk

/-- One operation of `dmcacheSaveWorker`. -/
def step (s : SaveDisk) (action : SaveAct) : Option (SaveDisk × Unit) :=
  match s.phase, action with
  | .idle, .take cache opened =>
      if opened then
        some ({ s with
          phase := .writing cache (pieces cache) {}
          temporary := some []
          given := s.given ++ [cache] }, ())
      else some ({ s with given := s.given ++ [cache] }, ())
  | .writing cache (text :: rest) output, .write count failed =>
      let output := output.insert text count failed
      -- the break behind an error
      some ({ s with
        phase := .writing cache (if output.bad then [] else rest) output
        temporary := some output.file }, ())
  | .writing cache [] output, .flush failed =>
      let output := output.flush failed
      -- an error is logged only
      some ({ s with phase := .flushed cache output, temporary := some output.file }, ())
  | .flushed cache output, .rename done =>
      if done then
        some ({ s with
          phase := .closing cache output true
          file := some output.file
          temporary := none
          replacements := s.replacements ++ [(cache, output.bad)] }, ())
      else some ({ s with phase := .closing cache output false }, ())
  | .closing _ output renamed, .close count =>
      let output := output.put count output.bad
      if renamed then some ({ s with phase := .idle, file := some output.file }, ())
      else some ({ s with phase := .idle, temporary := some output.file }, ())
  | _, _ => none

/-- The file is absent only if no save has replaced it, no save which met an error has, and what is
in it is the whole image of a cache. -/
structure Safe (s : SaveDisk) : Prop where
  absent : s.file = none ↔ s.replacements = []
  good : ∀ save ∈ s.replacements, save.2 = false
  whole : ∀ content ∈ s.file, ∃ cache ∈ s.given, content = saved cache

/-- The file is not renamed behind an error. -/
def Checked (s : SaveDisk) (action : SaveAct) (_ : SaveDisk) (_ : Unit) : Prop :=
  ∀ cache output, s.phase = .flushed cache output → output.bad = true → action ≠ .rename true

/-- What is known of the stream. -/
def Streams (s : SaveDisk) : Prop :=
  match s.phase with
  | .idle => True
  | .writing cache rest output =>
      cache ∈ s.given ∧ (output.bad = false → output.all ++ rest.flatten = saved cache)
  | .flushed cache output =>
      cache ∈ s.given ∧ (output.bad = false → output.waiting = [] ∧ output.all = saved cache)
  | .closing _ output renamed =>
      renamed = true → output.waiting = [] ∧ s.file = some output.file

theorem Safe.mono {s t : SaveDisk} (safe : s.Safe) (file : t.file = s.file)
    (replacements : t.replacements = s.replacements) (given : s.given ⊆ t.given) : t.Safe where
  absent := by rw [file, replacements, safe.absent]
  good := by
    rw [replacements]
    exact safe.good
  whole := by
    rw [file]
    intro content there
    obtain ⟨cache, member, same⟩ := safe.whole content there
    exact ⟨cache, given member, same⟩

/-- What one operation does: nothing to the file, unless it is a rename or closes the file which was
renamed. -/
theorem step_cases {s t : SaveDisk} {action : SaveAct} {out : Unit}
    (taken : s.step action = some (t, out)) :
    (∃ cache opened, action = .take cache opened ∧ t.file = s.file ∧
      t.replacements = s.replacements ∧ t.given = s.given ++ [cache] ∧
      (t.phase = s.phase ∨ t.phase = .writing cache (pieces cache) {}) ∧ s.phase = .idle) ∨
    (∃ cache text rest output count failed, action = .write count failed ∧
      s.phase = .writing cache (text :: rest) output ∧ t.file = s.file ∧
      t.replacements = s.replacements ∧ t.given = s.given ∧
      t.phase = .writing cache (if (output.insert text count failed).bad then [] else rest)
        (output.insert text count failed)) ∨
    (∃ cache output failed, action = .flush failed ∧ s.phase = .writing cache [] output ∧
      t.file = s.file ∧ t.replacements = s.replacements ∧ t.given = s.given ∧
      t.phase = .flushed cache (output.flush failed)) ∨
    (∃ cache output, action = .rename false ∧ s.phase = .flushed cache output ∧
      t.file = s.file ∧ t.replacements = s.replacements ∧ t.given = s.given ∧
      t.phase = .closing cache output false) ∨
    (∃ cache output, action = .rename true ∧ s.phase = .flushed cache output ∧
      t.file = some output.file ∧ t.replacements = s.replacements ++ [(cache, output.bad)] ∧
      t.given = s.given ∧ t.phase = .closing cache output true) ∨
    (∃ cache output renamed count, action = .close count ∧
      s.phase = .closing cache output renamed ∧
      t.file = (if renamed then some (output.put count output.bad).file else s.file) ∧
      t.replacements = s.replacements ∧ t.given = s.given ∧ t.phase = .idle) := by
  obtain ⟨phase, file, temporary, given, replacements⟩ := s
  cases phase with
  | idle =>
      cases action with
      | take cache opened =>
          refine .inl ⟨cache, opened, rfl, ?_⟩
          cases opened with
          | false =>
              cases taken
              exact ⟨rfl, rfl, rfl, .inl rfl, rfl⟩
          | true =>
              cases taken
              exact ⟨rfl, rfl, rfl, .inr rfl, rfl⟩
      | _ => cases taken
  | writing cache rest output =>
      cases action with
      | write count failed =>
          cases rest with
          | nil => cases taken
          | cons text rest =>
              cases taken
              exact .inr (.inl ⟨cache, text, rest, output, count, failed, rfl, rfl, rfl, rfl, rfl,
                rfl⟩)
      | flush failed =>
          cases rest with
          | nil =>
              cases taken
              exact .inr (.inr (.inl ⟨cache, output, failed, rfl, rfl, rfl, rfl, rfl, rfl⟩))
          | cons text rest => cases taken
      | _ => cases rest <;> cases taken
  | flushed cache output =>
      cases action with
      | rename done =>
          cases done with
          | false =>
              cases taken
              exact .inr (.inr (.inr (.inl ⟨cache, output, rfl, rfl, rfl, rfl, rfl, rfl⟩)))
          | true =>
              cases taken
              exact .inr (.inr (.inr (.inr (.inl ⟨cache, output, rfl, rfl, rfl, rfl, rfl, rfl⟩))))
      | _ => cases taken
  | closing cache output renamed =>
      cases action with
      | close count =>
          refine .inr (.inr (.inr (.inr (.inr ⟨cache, output, renamed, count, rfl, rfl, ?_⟩))))
          cases renamed with
          | false =>
              cases taken
              exact ⟨rfl, rfl, rfl, rfl⟩
          | true =>
              cases taken
              exact ⟨rfl, rfl, rfl, rfl⟩
      | _ => cases taken

theorem safe_step {s t : SaveDisk} {action : SaveAct} {out : Unit} (safe : s.Safe)
    (streams : s.Streams) (taken : s.step action = some (t, out)) :
    (t.Safe ↔ s.Checked action t out) ∧ (t.Safe → t.Streams) := by
  have checked : action ≠ .rename true → s.Checked action t out := fun other _ _ _ _ => other
  unfold Streams at streams ⊢
  rcases step_cases taken with ⟨cache, opened, rfl, file, replacements, given, phase, idle⟩ |
    ⟨cache, text, rest, output, count, failed, rfl, before, file, replacements, given, phase⟩ |
    ⟨cache, output, failed, rfl, before, file, replacements, given, phase⟩ |
    ⟨cache, output, rfl, before, file, replacements, given, phase⟩ |
    ⟨cache, output, rfl, before, file, replacements, given, phase⟩ |
    ⟨cache, output, renamed, count, rfl, before, file, replacements, given, phase⟩
  · have kept : s.given ⊆ t.given := by
      rw [given]
      exact List.subset_append_left _ _
    refine ⟨iff_of_true (safe.mono file replacements kept) (checked (by simp)), fun _ => ?_⟩
    rcases phase with same | phase
    · rw [same, idle]
      trivial
    · rw [phase]
      refine ⟨?_, fun _ => flatten_pieces cache⟩
      rw [given]
      exact List.mem_append_right _ (List.mem_singleton_self cache)
  · rw [before] at streams
    refine ⟨iff_of_true (safe.mono file replacements (by rw [given]; exact List.Subset.refl _))
      (checked (by simp)), fun _ => ?_⟩
    rw [phase]
    refine ⟨by rw [given]; exact streams.1, fun good => ?_⟩
    have fine : output.bad = false := by
      cases bad : output.bad with
      | false => rfl
      | true =>
          unfold Output.insert at good
          rw [bad, if_pos rfl, bad] at good
          cases good
    rw [good, if_neg Bool.false_ne_true, Output.all_insert fine, ← streams.2 fine,
      List.flatten_cons, List.append_assoc]
  · rw [before] at streams
    refine ⟨iff_of_true (safe.mono file replacements (by rw [given]; exact List.Subset.refl _))
      (checked (by simp)), fun _ => ?_⟩
    rw [phase]
    refine ⟨by rw [given]; exact streams.1, fun good => ⟨Output.waiting_flush good, ?_⟩⟩
    have fine : output.bad = false := by
      cases bad : output.bad with
      | false => rfl
      | true =>
          unfold Output.flush at good
          rw [bad, if_pos rfl, bad] at good
          cases good
    rw [Output.all_flush, ← streams.2 fine, List.flatten_nil, List.append_nil]
  · refine ⟨iff_of_true (safe.mono file replacements (by rw [given]; exact List.Subset.refl _))
      (checked (by simp)), fun _ => ?_⟩
    rw [phase]
    exact fun impossible => absurd impossible Bool.false_ne_true
  · rw [before] at streams
    have last : (cache, output.bad) ∈ t.replacements := by
      rw [replacements]
      exact List.mem_append_right _ (List.mem_singleton_self _)
    cases bad : output.bad with
    | true =>
        have unsafe_rename : ¬ t.Safe := by
          intro after
          have good : output.bad = false := after.good _ last
          rw [bad] at good
          cases good
        refine ⟨iff_of_false unsafe_rename fun allowed => ?_,
          fun after => absurd after unsafe_rename⟩
        exact allowed cache output before bad rfl
    | false =>
        obtain ⟨empty, all⟩ := streams.2 bad
        have content : output.file = saved cache := by
          rw [← all, Output.all, empty, List.append_nil]
        refine ⟨iff_of_true ⟨?_, ?_, ?_⟩ ?_, fun _ => ?_⟩
        · rw [file, replacements]
          simp
        · rw [replacements]
          intro save member
          rcases List.mem_append.mp member with old | new
          · exact safe.good save old
          · rw [List.mem_singleton.mp new, bad]
        · rw [file]
          intro whole there
          cases there
          exact ⟨cache, given ▸ streams.1, content⟩
        · intro other_cache other same wrong
          rw [before] at same
          cases same
          rw [bad] at wrong
          cases wrong
        · rw [phase]
          exact fun _ => ⟨empty, file⟩
  · rw [before] at streams
    have same : t.file = s.file := by
      cases renamed with
      | false => exact file
      | true =>
          obtain ⟨empty, there⟩ := streams rfl
          rw [file, there, if_pos rfl, Output.put, empty, List.take_nil, List.append_nil]
    refine ⟨iff_of_true (safe.mono same replacements (by rw [given]; exact List.Subset.refl _))
      (checked (by simp)), fun _ => ?_⟩
    rw [phase]
    trivial

/-- A save which has begun with this file: what is in the stream is a part of the image. -/
def Saving (cache : Cache) (start : Option Bytes) (s : SaveDisk) : Prop :=
  match s.phase with
  | .idle => ∃ env, s.file = dmcacheSaveWorker env cache start
  | .writing _ rest output => s.file = start ∧ output.all ++ rest.flatten <+: saved cache
  | .flushed _ output => s.file = start ∧ output.all <+: saved cache
  | .closing _ output renamed =>
      s.file = (if renamed then some output.file else start) ∧ output.all <+: saved cache

theorem saving_step {cache : Cache} {start : Option Bytes} {s t : SaveDisk} {action : SaveAct}
    {out : Unit} (saving : s.Saving cache start)
    (goes_on : ∀ cache opened, action ≠ .take cache opened)
    (taken : s.step action = some (t, out)) : t.Saving cache start := by
  unfold Saving at saving ⊢
  rcases step_cases taken with ⟨other, opened, rfl, -⟩ |
    ⟨_, text, rest, output, count, failed, rfl, before, file, -, -, phase⟩ |
    ⟨_, output, failed, rfl, before, file, -, -, phase⟩ |
    ⟨_, output, rfl, before, file, -, -, phase⟩ |
    ⟨_, output, rfl, before, file, -, -, phase⟩ |
    ⟨_, output, renamed, count, rfl, before, file, -, -, phase⟩
  · exact absurd rfl (goes_on other opened)
  · rw [before] at saving
    rw [phase]
    refine ⟨file.trans saving.1, List.IsPrefix.trans ?_ saving.2⟩
    cases bad : output.bad with
    | true =>
        have same : output.insert text count failed = output := if_pos bad
        rw [same, bad, if_pos rfl, List.flatten_nil, List.append_nil]
        exact List.prefix_append _ _
    | false =>
        rw [Output.all_insert bad, List.flatten_cons, ← List.append_assoc]
        split
        · rw [List.flatten_nil, List.append_nil]
          exact List.prefix_append _ _
        · exact List.prefix_refl _
  · rw [before] at saving
    rw [phase]
    have part : output.all ++ [] <+: saved cache := saving.2
    rw [List.append_nil] at part
    refine ⟨file.trans saving.1, ?_⟩
    rw [Output.all_flush]
    exact part
  · rw [before] at saving
    rw [phase]
    exact ⟨file.trans saving.1, saving.2⟩
  · rw [before] at saving
    rw [phase]
    exact ⟨file, saving.2⟩
  · rw [before] at saving
    rw [phase]
    have part : (output.put count output.bad).file <+: saved cache := by
      refine List.IsPrefix.trans ?_ saving.2
      rw [← Output.all_put output count output.bad]
      exact List.prefix_append _ _
    cases renamed with
    | false => exact ⟨{ renamed := false }, file.trans saving.1⟩
    | true =>
        refine ⟨{ written := some (output.put count output.bad).file.length }, file.trans ?_⟩
        exact congrArg some (List.prefix_iff_eq_take.mp part)

/-- One save, operation by operation, is a turn of the worker as a whole. -/
theorem save_refines {cache : Cache} {opened : Bool} {actions : List SaveAct} {s t : SaveDisk}
    {outs : List Unit} (goes_on : ∀ action ∈ actions, ∀ cache opened, action ≠ .take cache opened)
    (ran : Machine.run step s (.take cache opened :: actions) = some (t, outs))
    (ended : t.phase = .idle) : ∃ env, t.file = dmcacheSaveWorker env cache s.file := by
  obtain ⟨next, out, tail, taken, later, -⟩ := (Machine.run_cons_iff _ _ _ _ _).mp ran
  have begun : next.Saving cache s.file := by
    unfold Saving
    rcases step_cases taken with ⟨_, _, same, file, -, -, phase, idle⟩ |
      ⟨_, _, _, _, _, _, other, -⟩ | ⟨_, _, _, other, -⟩ | ⟨_, _, other, -⟩ | ⟨_, _, other, -⟩ |
      ⟨_, _, _, _, other, -⟩
    · cases same
      rcases phase with still | phase
      · rw [still, idle]
        exact ⟨{ opened := false }, file⟩
      · rw [phase]
        refine ⟨file, ?_⟩
        rw [flatten_pieces]
        exact List.prefix_refl _
    all_goals cases other
  have whole : t.Saving cache s.file := by
    apply Machine.invariant_of_run _ next t actions tail begun
      (Machine.along_and_of_forall next actions goes_on (Machine.along_true step next actions))
      later
    exact fun s action t out saving allowed taken => saving_step saving allowed.2 taken
  unfold Saving at whole
  rw [ended] at whole
  exact whole

/-- The file is safe after every operation exactly when no rename succeeds behind an error. -/
theorem safe_iff (actions : List SaveAct) :
    Machine.Along (fun _ _ t _ => t.Safe) step {} actions ↔
      Machine.Along Checked step {} actions := by
  have start : Safe {} ∧ Streams {} := by
    refine ⟨⟨iff_of_true rfl rfl, ?_, ?_⟩, trivial⟩
    · exact fun _ member => nomatch member
    · exact fun _ there => nomatch there
  have agree : ∀ (s : SaveDisk) action t out, s.Safe ∧ s.Streams → s.step action = some (t, out) →
      (t.Safe ↔ s.Checked action t out) ∧ (t.Safe → t.Safe ∧ t.Streams) := by
    intro s action t out ⟨safe, streams⟩ taken
    obtain ⟨same, keeps⟩ := safe_step safe streams taken
    exact ⟨same, fun after => ⟨after, keeps after⟩⟩
  exact Machine.along_iff_of_invariant agree {} actions start

/-- The disk is full when the end of the line is written. -/
theorem full_disk_replaces :
    ¬ ∀ actions, Machine.Along (fun _ _ t _ => t.Safe) step {} actions := by
  intro safe
  let cache : Cache := [([97], [98])]
  have along := safe [.take cache true, .write 0 false, .write 0 false, .write 0 false,
    .write 2 true, .flush none, .rename true]
  have last := along.2.2.2.2.2.2.1
  exact absurd (last.good (cache, true) List.mem_cons_self) (by decide)

end SaveDisk

end Upmpdcli
