import Upmpdcli.Cdplugins.ConftreeAgree
import Upmpdcli.ConftreeRoundTrip
import Upmpdcli.ConftreeStore
import Upmpdcli.Lib.Durable

set_option autoImplicit false

/- What the file has of the variables of a configuration after runs of its operations. -/
namespace Upmpdcli.Conftree.Disk

variable {d : Disk} {conf after : ConfSimple} {env : DiskEnv} {op : Op} {status : StatusCode}

/-- What is set can be read back. -/
def Op.Fits : Op → Prop
  | .set nm value sk => Name nm ∧ Value value ∧ Section sk
  | .erase _ _ | .clear | .holdWrites _ => True

/-- The file gives these variables to whoever opens it. -/
def Holds (path_tildexpand : Bytes → Bytes) (d : Disk) (vars : Variables) : Prop :=
  ∀ reading ≠ StatusCode.error, ∀ nm sk,
    (ConfSimple.ofFile path_tildexpand {} reading d.file).get nm sk = vars nm sk

/-- A configuration which is read back from what is written. -/
structure Legible (status : StatusCode) (d : Disk) : Prop where
  usable : Usable {} status d
  sound : Sound d.conf
  clean : Clean d.conf

theorem sound_erased {nm sk : Bytes} (sound : Sound conf)
    (erased : conf.eraseVar nm sk = some after) : Sound after := by
  obtain ⟨-, -, ⟨submaps, same⟩, -⟩ := ConfSimple.eraseVar_some erased
  have order : after.order = conf.order := by rw [same]
  have flags : after.flags = {} := by
    rw [same]
    exact sound.flags
  have old (nm' sk' value : Bytes) (found : after.find nm' sk' = some value) :
      conf.find nm' sk' = some value := by
    rw [ConfSimple.find_eq, ConfSimple.key_of_flags flags, ConfSimple.subkey_of_flags flags,
      ConfSimple.eraseVar_variables erased, Variables.erase] at found
    rw [ConfSimple.find_eq, ConfSimple.key_of_flags sound.flags,
      ConfSimple.subkey_of_flags sound.flags]
    exact (Option.ite_none_left_eq_some.mp found).2
  refine ⟨flags, ?_, ?_, ?_⟩
  · rw [order]
    exact sound.lines
  · exact fun nm' sk' value found => sound.values nm' sk' value (old nm' sk' value found)
  · intro nm' sk' value found
    rw [order]
    exact sound.covered nm' sk' value (old nm' sk' value found)

/-- An operation keeps the format. -/
theorem Op.Changes.sound (changed : op.Changes conf after) (fits : op.Fits) (sound : Sound conf)
    (clean : Clean conf) : Sound after ∧ Clean after := by
  cases op with
  | set nm value sk =>
      have assigned := ConfSimple.iSet_done sound.flags (fun init => by cases init) changed.2
      exact ⟨sound.assign assigned fits.1 fits.2.1 fits.2.2, assigned.clean clean⟩
  | erase nm sk =>
      obtain ⟨-, -, ⟨submaps, same⟩, -⟩ := ConfSimple.eraseVar_some changed.2
      refine ⟨sound_erased sound changed.2, ?_⟩
      rw [same]
      exact clean
  | clear =>
      rw [show after = _ from changed]
      refine ⟨⟨sound.flags, ?_, ?_, ?_⟩, ?_⟩
      · exact fun line member => absurd member List.not_mem_nil
      · exact fun nm sk value found => by cases found
      · exact fun nm sk value found => by cases found
      · exact fun line member => absurd member List.not_mem_nil
  | holdWrites on =>
      rw [show after = _ from changed]
      exact ⟨⟨sound.flags, sound.lines, sound.values, sound.covered⟩, clean⟩

/-- A write which is not cut short leaves the file alone or puts all of the lines into it. -/
theorem write_file (d : Disk) {env : DiskEnv} (good : env.good = true) :
    (d.write env).1.file = d.file ∨
      d.conf.status ≠ .error ∧ (d.write env).1.file = d.conf.writeLines [] d.conf.order := by
  unfold write
  split
  · exact .inl rfl
  · rename_i ok
    split
    · exact .inl rfl
    · split
      · split
        · exact .inr ⟨ok, rfl⟩
        · exact .inl rfl
      · exact .inl rfl

theorem write_done {d : Disk} {env : DiskEnv} (hasFile : d.conf.hasFile = true)
    (going : d.conf.holdWrites = false) (done : (d.write env).2 = true) :
    d.conf.status ≠ .error ∧ (d.write env).1.file = d.conf.writeLines [] d.conf.order := by
  unfold write at done ⊢
  split at done
  · cases done
  · rename_i ok
    split at done
    · rename_i held
      cases held.symm.trans going
    · split at done
      · rename_i opened
        refine ⟨ok, ?_⟩
        rw [if_neg ok, if_neg (by rw [going]; exact Bool.false_ne_true), if_pos hasFile,
          if_pos opened]
        dsimp only at done ⊢
        split at done
        · rename_i good
          rw [if_pos good]
        · cases done
      · cases done

theorem Legible.holds {path_tildexpand : Bytes → Bytes} (legible : Legible status d)
    (ok : d.conf.status ≠ .error) (written : d.file = conf.writeLines [] conf.order)
    (same : conf = d.conf) : Holds path_tildexpand d d.conf.variables := by
  intro reading readable nm sk
  rw [ConfSimple.get, if_neg (by rw [ofFile_status]; exact readable), written, same,
    find_ofFile_writeLines path_tildexpand reading ok legible.sound legible.clean,
    ConfSimple.find_eq, ConfSimple.key_of_flags legible.usable.flags,
    ConfSimple.subkey_of_flags legible.usable.flags]

/-- The file is a copy of the variables in memory, which may be late. -/
theorem writeThrough (path_tildexpand : Bytes → Bytes) (status : StatusCode) :
    Durable.WriteThrough step (Legible status) (fun op => op.1.Fits ∧ op.2.good = true)
      (fun d => d.conf.variables) (fun vars op => op.1.apply {} (status = .rw) vars)
      (Holds path_tildexpand) (fun d ret => ret = true ∧ d.conf.holdWrites = false) := by
  have keeps (d : Disk) (op : Op × DiskEnv) (next : Disk) (ret : Bool)
      (legible : Legible status d) (allowed : op.1.Fits ∧ op.2.good = true)
      (taken : d.step op = some (next, ret)) : Legible status next := by
    obtain ⟨next', ret', taken', usable, -⟩ := legible.usable.step op.1 op.2
    cases taken.symm.trans taken'
    have kept {after : ConfSimple} (changed : op.1.Changes d.conf after)
        (made : next.conf = after) : Legible status next := by
      have format := changed.sound allowed.1 legible.sound legible.clean
      exact ⟨usable, made ▸ format.1, made ▸ format.2⟩
    rcases step_cases legible.usable.indexed op.1 op.2 with
      ⟨refused, -⟩ | ⟨after, changed, written | held⟩
    · cases taken.symm.trans refused
      exact legible
    · have same := Option.some.inj (taken.symm.trans written)
      exact kept changed ((congrArg (fun out => out.1.conf) same).trans (write_conf _ op.2))
    · have same := Option.some.inj (taken.symm.trans held.2)
      exact kept changed (congrArg (fun out => out.1.conf) same)
  constructor
  · intro d op legible _
    obtain ⟨next, ret, taken, -⟩ := legible.usable.step op.1 op.2
    exact ⟨next, ret, taken⟩
  · exact keeps
  · intro d op next ret legible _ taken
    obtain ⟨next', ret', taken', -, made⟩ := legible.usable.step op.1 op.2
    cases taken.symm.trans taken'
    exact made
  · intro d op next ret vars legible allowed taken copied
    have still := keeps d op next ret legible allowed taken
    rcases step_cases legible.usable.indexed op.1 op.2 with
      ⟨refused, -⟩ | ⟨after, -, written | held⟩
    · cases taken.symm.trans refused
      exact .inl copied
    · have same := Option.some.inj (taken.symm.trans written)
      have conf : next.conf = after :=
        (congrArg (fun out => out.1.conf) same).trans (write_conf _ op.2)
      have file : next.file = _ := congrArg (fun out => out.1.file) same
      rcases write_file ({ d with conf := after } : Disk) allowed.2 with old | ⟨ok, new⟩
      · left
        rw [Holds, file, old]
        exact copied
      · exact .inr (still.holds (by rw [conf]; exact ok) (file.trans new) conf.symm)
    · have same := Option.some.inj (taken.symm.trans held.2)
      left
      rw [Holds, show next.file = d.file from congrArg (fun out => out.1.file) same]
      exact copied
  · intro d op next ret legible allowed taken synced
    have still := keeps d op next ret legible allowed taken
    rcases step_cases legible.usable.indexed op.1 op.2 with
      ⟨refused, -⟩ | ⟨after, changed, written | held⟩
    · cases taken.symm.trans refused
      cases synced.1
    · have same := Option.some.inj (taken.symm.trans written)
      have conf : next.conf = after :=
        (congrArg (fun out => out.1.conf) same).trans (write_conf _ op.2)
      have file : next.file = _ := congrArg (fun out => out.1.file) same
      have done := (congrArg (fun out => out.2) same).symm.trans synced.1
      obtain ⟨ok, new⟩ := write_done (by rw [← conf]; exact still.usable.hasFile)
        (by rw [← conf]; exact synced.2) done
      exact still.holds (by rw [conf]; exact ok) (file.trans new) conf.symm
    · have same := Option.some.inj (taken.symm.trans held.2)
      rw [held.1] at changed
      have holding : next.conf.holdWrites = true := by
        rw [show next.conf = after from congrArg (fun out => out.1.conf) same,
          show after = _ from changed]
      cases holding.symm.trans synced.2

/-- Runs of a configuration whose file is closed again after each change. It is opened again
with what its first operations made of it, however many of the last ones could not be written,
and with all of its variables once one of them has reported success. -/
theorem reopen_run (path_tildexpand : Bytes → Bytes) {status : StatusCode} (content : Bytes)
    (readable : status ≠ .error)
    (clean : Clean (ConfSimple.ofFile path_tildexpand {} status content))
    (ops : List (Op × DiskEnv)) (fits : ∀ op ∈ ops, op.1.Fits ∧ op.2.good = true) :
    let start := (ConfSimple.ofFile path_tildexpand {} status content).variables
    let made := fun (ops : List (Op × DiskEnv)) =>
      ops.foldl (fun vars op => op.1.apply {} (status = .rw) vars) start
    ∃ last rets, Machine.run step (.ofFile path_tildexpand {} status content) ops =
        some (last, rets) ∧
      (∀ nm sk, last.conf.get nm sk = made ops nm sk) ∧
      (∃ first, first <+: ops ∧ Holds path_tildexpand last (made first)) ∧
      (rets.getLast? = some true → last.conf.holdWrites = false →
        Holds path_tildexpand last (made ops)) := by
  intro start made
  have sound := sound_ofFile path_tildexpand status content
  have legible : Legible status (.ofFile path_tildexpand {} status content) :=
    ⟨usable_ofFile path_tildexpand {} status content, sound, clean⟩
  have copy : Holds path_tildexpand (.ofFile path_tildexpand {} status content) start := by
    intro reading ok nm sk
    have same : (ConfSimple.ofFile path_tildexpand {} reading content).get nm sk =
        (ConfSimple.ofFile path_tildexpand {} status content).get nm sk := by
      rw [Pycommon.server_get ok, Pycommon.server_get readable]
    rw [ofFile, same, ConfSimple.get, if_neg (by rw [ofFile_status]; exact readable),
      ConfSimple.find_eq, ConfSimple.key_of_flags sound.flags,
      ConfSimple.subkey_of_flags sound.flags]
  obtain ⟨last, rets, ran, kept, held, earlier, synced⟩ :=
    (writeThrough path_tildexpand status).run fits legible copy
  refine ⟨last, rets, ran, fun nm sk => ?_, earlier, fun success going => ?_⟩
  · rw [ConfSimple.get, if_neg (by rw [kept.usable.status]; exact readable), ConfSimple.find_eq,
      ConfSimple.key_of_flags kept.usable.flags, ConfSimple.subkey_of_flags kept.usable.flags, held]
    rfl
  · have current := synced ⟨true, success, rfl, going⟩
    rw [held] at current
    exact current

theorem section_of_plain {sk : Bytes}
    (plain : ∀ c ∈ sk, brackets.contains c = false ∧ c ≠ byte '\n') : Section sk where
  stripped := ⟨fun c first => (plain c (List.mem_of_head? first)).1,
    fun c last => (plain c (List.mem_of_getLast? last)).1⟩
  one_line := fun member => (plain _ member).2 rfl

/-- The last write of a section which is erased fails, and what follows is held back. -/
theorem reopen_run_held :
    let ops : List (Op × DiskEnv) := [(.set (bytes "c") longValue (bytes "s"), {}),
      (.erase (bytes "b") (bytes "s"), { opened := false }), (.holdWrites true, {}),
      (.set (bytes "a") (bytes "2") [], {}), (.erase (bytes "c") (bytes "s"), {}),
      (.holdWrites false, {})]
    let start := ConfSimple.ofFile id {} .rw (bytes "a = 1\n[s]\nb = 2\n")
    ∃ last rets, Machine.run step (.ofFile id {} .rw (bytes "a = 1\n[s]\nb = 2\n")) ops =
        some (last, rets) ∧ rets = [true, false, true, true, true, true] ∧
      Holds id last (ops.foldl (fun vars op => op.1.apply {} true vars) start.variables) := by
  intro ops start
  have named (nm : Bytes) (identifier : Identifier nm) : Name nm := identifier.name
  have opened : Section (bytes "s") := section_of_plain (by decide +kernel)
  have two : Value (bytes "2") :=
    ⟨⟨by decide +kernel, by decide +kernel⟩, by decide +kernel, by decide +kernel⟩
  have fits : ∀ op ∈ ops, op.1.Fits ∧ op.2.good = true := by
    have c := named (bytes "c") ⟨by decide, by decide +kernel⟩
    have a := named (bytes "a") ⟨by decide, by decide +kernel⟩
    simp only [ops, List.forall_mem_cons, Op.Fits]
    exact ⟨⟨⟨c, longValue_fits, opened⟩, trivial⟩, ⟨trivial, trivial⟩, ⟨trivial, trivial⟩,
      ⟨⟨a, two, section_nil⟩, trivial⟩, ⟨trivial, trivial⟩, ⟨trivial, trivial⟩,
      fun _ member => absurd member List.not_mem_nil⟩
  have clean : Clean start := by
    unfold Clean
    decide +kernel
  obtain ⟨last, rets, ran, -, -, synced⟩ := reopen_run id (bytes "a = 1\n[s]\nb = 2\n")
    (by decide) clean ops fits
  have outs : (Machine.run step (.ofFile id {} .rw (bytes "a = 1\n[s]\nb = 2\n")) ops).map
      (fun out => (out.2, out.1.conf.holdWrites)) =
      some ([true, false, true, true, true, true], false) := by decide +kernel
  rw [ran, Option.map_some, Option.some.injEq, Prod.mk.injEq] at outs
  have all : rets = [true, false, true, true, true, true] := outs.1
  exact ⟨last, rets, ran, all, synced (congrArg List.getLast? all) outs.2⟩

end Upmpdcli.Conftree.Disk
