import Mathlib.Data.List.Basic
import Upmpdcli.Bytes
import Upmpdcli.Lib.Machine
import Upmpdcli.Netcon

set_option autoImplicit false

/- The same reads with the clock: `select` may time out before any of them, and the line
reader of a command then starts again. -/
namespace Upmpdcli

/-- What comes of one wait for the pipe. -/
inductive PipeEvent where
  /-- The time-out of `select`, and if the one who is told of it throws. -/
  | timeout (fatal : Bool)
  | failed
  /-- A read which may return so many bytes and one. -/
  | ready (size : Nat)
deriving DecidableEq

/-- The end of the pipe from the command: what a `getline` has left in the buffer, and all that
the command is still to write. -/
structure NetconCli where
  mbuf : Bytes := []
  fd : Bytes
deriving DecidableEq

/-- What a call reports: -1 stands for `failed`, and for `timedOut` if `timedout()` says so. -/
inductive PipeResult where
  | data (got : Bytes)
  | timedOut (fatal : Bool)
  | failed
deriving DecidableEq

namespace NetconCli

open NetconData (transfer defbufsize transfer_append transfer_left)

def stream (con : NetconCli) : Bytes := con.mbuf ++ con.fd

def read (con : NetconCli) (cnt size : Nat) : Bytes × NetconCli :=
  (con.fd.take (min cnt (size + 1)), { con with fd := con.fd.drop (min cnt (size + 1)) })

/-- `receive` without a time-out, which waits in `read`. The events are the ones of the call:
there is no result if they are not what it goes through. -/
def receive (con : NetconCli) (cnt : Nat) (events : List PipeEvent) :
    Option (PipeResult × NetconCli × List PipeEvent) :=
  let got := con.mbuf.take cnt
  let con := { con with mbuf := con.mbuf.drop cnt }
  if got ≠ [] ∧ cnt ≤ got.length then some (.data got, con, events)
  else
    match events with
    | .ready size :: events =>
        let (more, con) := con.read (cnt - got.length) size
        some (.data (got ++ more), con, events)
    | .failed :: events => some (.failed, con, events)
    | _ => none

/-- The loop of `getline`, with what is left of `cnt` and the line so far. -/
def getlineLoop (con : NetconCli) (cnt : Nat) (line : Bytes) (events : List PipeEvent) :
    Option (PipeResult × NetconCli × List PipeEvent) :=
  match transfer (cnt - 1) con.mbuf with
  | (moved, rest) =>
      let line := line ++ moved
      let cnt := cnt - moved.length
      if cnt ≤ 1 ∨ line.getLast? = some (byte '\n') then
        some (.data line, { con with mbuf := rest }, events)
      else
        -- the buffer has been used up
        match events with
        | [] => none
        | .timeout fatal :: events => some (.timedOut fatal, { con with mbuf := [] }, events)
        | .failed :: events => some (.failed, { con with mbuf := [] }, events)
        | .ready size :: events =>
            let (got, con) := con.read defbufsize size
            if got = [] then some (.data line, { con with mbuf := [] }, events)
            else getlineLoop { con with mbuf := got } cnt line events

def getline (con : NetconCli) (cnt : Nat) (events : List PipeEvent) :
    Option (PipeResult × NetconCli × List PipeEvent) :=
  con.getlineLoop cnt [] events

theorem read_append (con : NetconCli) (cnt size : Nat) :
    (con.read cnt size).1 ++ (con.read cnt size).2.fd = con.fd := List.take_append_drop _ _

/-- Nothing is read only at the end of the file. -/
theorem read_eq_nil {con : NetconCli} {size : Nat} (none_read : (con.read defbufsize size).1 = []) :
    con.fd = [] := by
  rcases List.take_eq_nil_iff.mp none_read with absurd_count | empty
  · unfold defbufsize at absurd_count
    omega
  · exact empty

/-- The buffer has been used up when the loop goes on. -/
theorem transfer_used {con : NetconCli} {cnt : Nat} {line moved rest : Bytes}
    (moved_eq : transfer (cnt - 1) con.mbuf = (moved, rest))
    (more : ¬ (cnt - moved.length ≤ 1 ∨ (line ++ moved).getLast? = some (byte '\n'))) :
    rest = [] ∧ moved = con.mbuf := by
  have none_left : rest = [] := by
    by_contra left
    have stopped : moved.length = cnt - 1 ∨ moved.getLast? = some (byte '\n') := by
      simpa only [moved_eq] using transfer_left (cnt - 1) con.mbuf
        (by simpa only [moved_eq] using left)
    rcases stopped with full | ended
    · exact more (.inl (by omega))
    · refine more (.inr ?_)
      have some_moved : moved ≠ [] := fun empty => by simp [empty] at ended
      rw [List.getLast?_append_of_ne_nil _ some_moved]
      exact ended
  have whole := transfer_append (cnt - 1) con.mbuf
  rw [moved_eq, none_left, List.append_nil] at whole
  exact ⟨none_left, whole⟩

/-- A line ends at the first newline, at the size of the buffer or at the end of the file. -/
structure LineEnds (line rest : Bytes) : Prop where
  first : byte '\n' ∉ line.dropLast
  ended : line.getLast? = some (byte '\n') ∨ line.length = 1023 ∨ rest = []

instance (line rest : Bytes) : Decidable (LineEnds line rest) :=
  decidable_of_iff (byte '\n' ∉ line.dropLast ∧
      (line.getLast? = some (byte '\n') ∨ line.length = 1023 ∨ rest = []))
    ⟨fun ends => ⟨ends.1, ends.2⟩, fun ends => ⟨ends.1, ends.2⟩⟩

theorem transfer_first (n : Nat) (buf : Bytes) : byte '\n' ∉ (transfer n buf).1.dropLast := by
  induction n generalizing buf with
  | zero => exact List.not_mem_nil
  | succ n ih =>
      cases buf with
      | nil => exact List.not_mem_nil
      | cons c rest =>
          unfold transfer
          split
          · exact List.not_mem_nil
          · rename_i inside
            dsimp only
            cases moved : (transfer n rest).1 with
            | nil => exact List.not_mem_nil
            | cons d more =>
                rw [List.dropLast_cons_cons, ← moved, List.mem_cons, not_or]
                exact ⟨Ne.symm inside, ih rest⟩

theorem length_transfer_le (n : Nat) (buf : Bytes) : (transfer n buf).1.length ≤ n := by
  induction n generalizing buf with
  | zero => exact le_refl _
  | succ n ih =>
      cases buf with
      | nil => exact Nat.zero_le _
      | cons c rest =>
          unfold transfer
          split
          · exact Nat.succ_le_succ (Nat.zero_le n)
          · exact Nat.succ_le_succ (ih rest)

theorem dropLast_append_first {line moved : Bytes} (absent : byte '\n' ∉ line)
    (first : byte '\n' ∉ moved.dropLast) : byte '\n' ∉ (line ++ moved).dropLast := by
  by_cases some_moved : moved = []
  · rw [some_moved, List.append_nil]
    exact fun member => absent (List.dropLast_subset _ member)
  · rw [List.dropLast_append_of_ne_nil some_moved, List.mem_append, not_or]
    exact ⟨absent, first⟩

/-- A line which has not ended has no newline. -/
theorem absent_of_unfinished {line : Bytes} (first : byte '\n' ∉ line.dropLast)
    (unfinished : line.getLast? ≠ some (byte '\n')) : byte '\n' ∉ line := by
  rcases List.eq_nil_or_concat line with rfl | ⟨before, last, rfl⟩
  · exact List.not_mem_nil
  · rw [List.concat_eq_append] at first unfinished ⊢
    rw [List.dropLast_concat] at first
    rw [List.getLast?_concat] at unfinished
    rw [List.mem_append, List.mem_singleton, not_or]
    exact ⟨first, fun same => unfinished (congrArg some same.symm)⟩

/-- What one round of the loop can do, after the transfer of `moved`. -/
inductive Round (con : NetconCli) (cnt : Nat) (acc moved : Bytes) (res : PipeResult)
    (after : NetconCli) (rest : List PipeEvent) : List PipeEvent → Prop
  | done (left : Bytes) (buf : con.mbuf = moved ++ left) (same : res = .data (acc ++ moved))
      (kept : after = { con with mbuf := left })
      (ended : cnt - moved.length ≤ 1 ∨ (acc ++ moved).getLast? = some (byte '\n')) :
      Round con cnt acc moved res after rest rest
  | timeout (fatal : Bool) (buf : con.mbuf = moved) (same : res = .timedOut fatal)
      (kept : after = { con with mbuf := [] }) :
      Round con cnt acc moved res after rest (.timeout fatal :: rest)
  | failed (same : res = .failed) : Round con cnt acc moved res after rest (.failed :: rest)
  | eof (size : Nat) (buf : con.mbuf = moved) (none_left : con.fd = [])
      (same : res = .data (acc ++ moved)) (kept : after = { con with mbuf := [] }) :
      Round con cnt acc moved res after rest (.ready size :: rest)
  | ready (size : Nat) (events : List PipeEvent) (buf : con.mbuf = moved)
      (more : ¬ (cnt - moved.length ≤ 1 ∨ (acc ++ moved).getLast? = some (byte '\n')))
      (some_got : (con.read defbufsize size).1 ≠ [])
      (later : getlineLoop ⟨(con.read defbufsize size).1, (con.read defbufsize size).2.fd⟩
        (cnt - moved.length) (acc ++ moved) events = some (res, after, rest)) :
      Round con cnt acc moved res after rest (.ready size :: events)

theorem getlineLoop_round {con after : NetconCli} {cnt : Nat} {acc : Bytes} {res : PipeResult}
    {events rest : List PipeEvent}
    (got : con.getlineLoop cnt acc events = some (res, after, rest)) :
    Round con cnt acc (transfer (cnt - 1) con.mbuf).1 res after rest events := by
  rw [getlineLoop.eq_def] at got
  split at got
  rename_i moved left moved_eq
  rw [moved_eq]
  dsimp only at got ⊢
  split at got
  · rename_i ended
    cases got
    have whole := transfer_append (cnt - 1) con.mbuf
    rw [moved_eq] at whole
    exact .done left whole.symm rfl rfl ended
  · rename_i more
    have buf := (transfer_used moved_eq more).2.symm
    split at got
    · cases got
    · cases got
      exact .timeout _ buf rfl rfl
    · cases got
      exact .failed rfl
    · rename_i size events
      split at got
      · rename_i none_read
        cases got
        have none_left := read_eq_nil none_read
        have same := con.read_append defbufsize size
        rw [none_read, none_left, List.nil_append] at same
        refine .eof size buf none_left rfl ?_
        rw [same, none_left]
      · rename_i some_got
        exact .ready size events buf more some_got got

/-- A line is all that was still to be read before what is now, and it ends as a line does. -/
theorem getlineLoop_data {con after : NetconCli} {cnt : Nat} {acc line : Bytes}
    {events rest : List PipeEvent}
    (got : con.getlineLoop cnt acc events = some (.data line, after, rest))
    (absent : byte '\n' ∉ acc) (count : acc.length + cnt = 1024) (some_count : 0 < cnt) :
    acc ++ con.stream = line ++ after.stream ∧ LineEnds line after.stream ∧
      ∃ sizes : List Nat, events = sizes.map .ready ++ rest := by
  induction long : events.length using Nat.strong_induction_on generalizing con cnt acc events with
  | _ long ih =>
      have first := dropLast_append_first absent (transfer_first (cnt - 1) con.mbuf)
      have few := length_transfer_le (cnt - 1) con.mbuf
      cases getlineLoop_round got with
      | done left buf same kept ended =>
          cases same
          subst kept
          refine ⟨?_, ⟨first, ?_⟩, [], rfl⟩
          · show acc ++ (con.mbuf ++ con.fd) = acc ++ _ ++ (left ++ con.fd)
            rw [List.append_assoc, ← List.append_assoc _ left, ← buf]
          · rcases ended with full | ended
            · refine .inr (.inl ?_)
              rw [List.length_append]
              omega
            · exact .inl ended
      | timeout fatal buf same kept => cases same
      | failed same => cases same
      | eof size buf none_left same kept =>
          cases same
          subst kept
          refine ⟨?_, ⟨first, .inr (.inr none_left)⟩, [size], rfl⟩
          unfold stream
          rw [← buf, none_left]
          simp only [List.append_nil]
      | ready size events buf more some_got later =>
          rw [not_or] at more
          rw [List.length_cons] at long
          obtain ⟨whole, ends, sizes, rfl⟩ := ih _ (by omega) later
            (absent_of_unfinished first more.2) (by rw [List.length_append]; omega) (by omega) rfl
          refine ⟨?_, ends, size :: sizes, rfl⟩
          rw [← whole, ← buf]
          unfold stream
          rw [read_append, List.append_assoc]

/-- A time-out loses what the call had got before it. -/
theorem getlineLoop_timedOut {con after : NetconCli} {cnt : Nat} {acc : Bytes} {fatal : Bool}
    {events rest : List PipeEvent}
    (got : con.getlineLoop cnt acc events = some (.timedOut fatal, after, rest)) :
    ∃ lost, con.stream = lost ++ after.stream ∧ after.mbuf = [] ∧
      ∃ sizes : List Nat, events = sizes.map .ready ++ .timeout fatal :: rest ∧
        (lost = [] ↔ con.mbuf = [] ∧ sizes = []) := by
  induction events generalizing con cnt acc with
  | nil =>
      cases getlineLoop_round got with
      | done left buf same kept ended => cases same
  | cons event events ih =>
      cases getlineLoop_round got with
      | done left buf same kept ended => cases same
      | timeout fatal buf same kept =>
          cases same
          subst kept
          exact ⟨con.mbuf, rfl, rfl, [], rfl, by simp⟩
      | failed same => cases same
      | eof size buf none_left same kept => cases same
      | ready size events buf more some_got later =>
          obtain ⟨lost, whole, unbuffered, sizes, rfl, kept⟩ := ih later
          refine ⟨con.mbuf ++ lost, ?_, unbuffered, size :: sizes, rfl, ?_⟩
          · rw [List.append_assoc, ← whole]
            unfold stream
            rw [read_append]
          · have some_lost : lost ≠ [] := fun empty => some_got (kept.mp empty).1
            simp [some_lost]

/-- The loop of `receive` in the command, for a count which is not null. -/
def receiveLoop (con : NetconCli) (cnt : Nat) (data : Bytes) (events : List PipeEvent) :
    Option (PipeResult × NetconCli × List PipeEvent) :=
  match con.receive (min (cnt - data.length) 4096) events with
  | some (.data got, con, events) =>
      if got = [] then some (.data data, con, events)
      else if (data ++ got).length < cnt then receiveLoop con cnt (data ++ got) events
      else some (.data (data ++ got), con, events)
  | res => res
termination_by cnt - data.length
decreasing_by
  rename_i some_got short
  have long := List.length_pos_iff.mpr some_got
  rw [List.length_append] at short
  rw [List.length_append]
  omega

theorem receive_data {con after : NetconCli} {cnt : Nat} {got : Bytes}
    {events rest : List PipeEvent} (some_count : 0 < cnt)
    (received : con.receive cnt events = some (.data got, after, rest)) :
    con.stream = got ++ after.stream := by
  unfold receive at received
  dsimp only at received
  unfold stream
  split at received
  · cases received
    rw [← List.append_assoc, List.take_append_drop]
  · rename_i short
    have used : con.mbuf.length ≤ cnt := by
      by_contra long
      apply short
      rw [List.length_take, ← List.length_pos_iff, List.length_take]
      omega
    split at received
    · cases received
      dsimp only [read]
      rw [List.take_of_length_le used, List.drop_of_length_le used, List.nil_append,
        List.append_assoc, List.take_append_drop]
    · cases received
    · cases received

theorem receiveLoop_data {con after : NetconCli} {cnt : Nat} {data all : Bytes}
    {events rest : List PipeEvent} (short : data.length < cnt)
    (received : con.receiveLoop cnt data events = some (.data all, after, rest)) :
    data ++ con.stream = all ++ after.stream := by
  induction con, data, events using receiveLoop.induct cnt with
  | case1 con data events next later found =>
      rw [receiveLoop, found] at received
      cases received
      rw [receive_data (by omega) found, List.nil_append]
  | case2 con data events got next later found some_got more ih =>
      rw [receiveLoop, found] at received
      dsimp only at received
      rw [if_neg some_got, if_pos more] at received
      rw [← ih more received, receive_data (by omega) found, List.append_assoc]
  | case3 con data events got next later found some_got enough =>
      rw [receiveLoop, found] at received
      dsimp only at received
      rw [if_neg some_got, if_neg enough] at received
      cases received
      rw [receive_data (by omega) found, List.append_assoc]
  | case4 con data events none_got =>
      rw [receiveLoop] at received
      split at received
      · rename_i got next later found
        exact absurd found (none_got got next later)
      · exact absurd received (none_got all after rest)

end NetconCli

namespace ExecCmdTimeout

open NetconCli

def receive (con : NetconCli) (cnt : Nat) (events : List PipeEvent) :
    Option (PipeResult × NetconCli × List PipeEvent) := con.receiveLoop cnt [] events

/-- `getline`, which tells of a time-out and goes again. -/
def getline (con : NetconCli) (events : List PipeEvent) :
    Option (PipeResult × NetconCli × List PipeEvent) :=
  match _got : con.getline 1024 events with
  | some (.timedOut false, con, rest) => getline con rest
  | res => res
termination_by events.length
decreasing_by
  obtain ⟨-, -, -, sizes, rfl, -⟩ := getlineLoop_timedOut _got
  simp only [List.length_append, List.length_cons]
  omega

/-- A call, with what it goes through. -/
inductive Call where
  | getline (events : List PipeEvent)
  | receive (cnt : Nat) (events : List PipeEvent)
deriving DecidableEq

/-- A call which reports no error. -/
def step (con : NetconCli) : Call → Option (NetconCli × Bytes)
  | .getline events =>
      match getline con events with
      | some (.data line, con, []) => some (con, line)
      | _ => none
  | .receive cnt events =>
      if cnt = 0 then none
      else
        match receive con cnt events with
        | some (.data data, con, []) => some (con, data)
        | _ => none

/-- No time-out comes after the first bytes of the line. -/
def Undisturbed : Bool → List PipeEvent → Prop
  | _, [] => True
  | begun, .timeout _ :: events => begun = false ∧ Undisturbed false events
  | _, _ :: events => Undisturbed true events

/-- No time-out comes in the middle of the line. -/
def Call.Quiet (con : NetconCli) : Call → Prop
  | .getline events => Undisturbed (decide (con.mbuf ≠ [])) events
  | .receive _ _ => True

/-- A line ends where it should in what was still to be read. -/
def Call.Ends (next : NetconCli) (out : Bytes) : Call → Prop
  | .getline _ => LineEnds out next.stream
  | .receive _ _ => True

theorem undisturbed_ready (begun : Bool) (sizes : List Nat) :
    Undisturbed begun (sizes.map .ready) := by
  induction sizes generalizing begun with
  | nil => trivial
  | cons size sizes ih => exact ih true

theorem undisturbed_timeout_iff (begun : Bool) (sizes : List Nat) (fatal : Bool)
    (events : List PipeEvent) :
    Undisturbed begun (sizes.map .ready ++ .timeout fatal :: events) ↔
      (begun = false ∧ sizes = []) ∧ Undisturbed false events := by
  induction sizes generalizing begun with
  | nil => simp [Undisturbed]
  | cons size sizes ih =>
      have later := ih true
      simp only [Bool.true_eq_false, false_and, iff_false] at later
      simp only [List.map_cons, List.cons_append, Undisturbed, later, reduceCtorEq, and_false,
        false_and]

/-- What is lost is what had been read before the last time-out. -/
theorem getline_data {con after : NetconCli} {line : Bytes} {events rest : List PipeEvent}
    (got : getline con events = some (.data line, after, rest)) :
    ∃ lost used, con.stream = lost ++ line ++ after.stream ∧ events = used ++ rest ∧
      (lost = [] ↔ Undisturbed (decide (con.mbuf ≠ [])) used) ∧
        LineEnds line after.stream := by
  induction con, events using getline.induct with
  | case1 con events next later found ih =>
      rw [getline, found] at got
      obtain ⟨lost, whole, unbuffered, sizes, rfl, kept⟩ := getlineLoop_timedOut found
      obtain ⟨more, used, later_whole, rfl, later_kept, ends⟩ := ih got
      refine ⟨lost ++ more, sizes.map .ready ++ .timeout false :: used, ?_, ?_, ?_, ends⟩
      · rw [whole, later_whole]
        simp only [List.append_assoc]
      · rw [List.append_assoc, List.cons_append]
      · rw [undisturbed_timeout_iff, List.append_eq_nil_iff, kept, later_kept]
        simp [unbuffered]
  | case2 con events finished =>
      rw [getline] at got
      split at got
      · rename_i next later found
        exact absurd found (finished next later)
      · obtain ⟨whole, ends, sizes, rfl⟩ :=
          getlineLoop_data got List.not_mem_nil rfl (by decide)
        rw [List.nil_append] at whole
        exact ⟨[], sizes.map .ready, whole, rfl, by simp [undisturbed_ready], ends⟩

theorem step_stream {con next : NetconCli} {call : Call} {out : Bytes}
    (taken : step con call = some (next, out)) :
    ∃ lost, con.stream = lost ++ out ++ next.stream ∧ (lost = [] ↔ call.Quiet con) ∧
      call.Ends next out := by
  cases call with
  | getline events =>
      rw [step] at taken
      split at taken
      · rename_i got
        cases taken
        obtain ⟨lost, used, whole, rfl, kept, ends⟩ := getline_data got
        rw [List.append_nil]
        exact ⟨lost, whole, kept, ends⟩
      · cases taken
  | receive cnt events =>
      rw [step] at taken
      split at taken
      · cases taken
      · split at taken
        · rename_i some_count _ _ _ got
          cases taken
          have whole := receiveLoop_data (Nat.pos_of_ne_zero some_count) got
          exact ⟨[], whole, iff_of_true rfl trivial, trivial⟩
        · cases taken

/-- The calls lose nothing of the stream: what they returned, then what is still to be read. And
each line ends where it should. -/
structure Lossless (con : NetconCli) (calls : List Call) (last : NetconCli) (outs : List Bytes) :
    Prop where
  whole : outs.flatten ++ last.stream = con.stream
  lines : Machine.Along (fun _ call next out => call.Ends next out) step con calls

theorem lines_ends (con : NetconCli) (calls : List Call) :
    Machine.Along (fun _ call next out => call.Ends next out) step con calls :=
  @Machine.along_of_invariant _ _ _ _ (fun _ => True) _ _
    (fun _ _ _ _ _ _ taken =>
      have ⟨_, _, _, ends⟩ := step_stream taken
      ⟨trivial, ends⟩)
    con calls trivial (Machine.along_true step con calls)

theorem length_run_le {con last : NetconCli} {calls : List Call} {outs : List Bytes}
    (ran : Machine.run step con calls = some (last, outs)) :
    outs.flatten.length + last.stream.length ≤ con.stream.length := by
  induction calls generalizing con outs with
  | nil =>
      cases ran
      simp
  | cons call calls ih =>
      obtain ⟨next, out, tail, taken, later, rfl⟩ := (Machine.run_cons_iff _ _ _ _ _).mp ran
      obtain ⟨lost, whole, -, -⟩ := step_stream taken
      have rest := ih later
      rw [whole, List.flatten_cons]
      simp only [List.length_append]
      omega

theorem run_whole_iff {con last : NetconCli} {calls : List Call} {outs : List Bytes}
    (ran : Machine.run step con calls = some (last, outs)) :
    outs.flatten ++ last.stream = con.stream ↔
      Machine.Along (fun con call _ _ => call.Quiet con) step con calls := by
  induction calls generalizing con outs with
  | nil =>
      cases ran
      exact iff_of_true rfl trivial
  | cons call calls ih =>
      obtain ⟨next, out, tail, taken, later, rfl⟩ := (Machine.run_cons_iff _ _ _ _ _).mp ran
      obtain ⟨lost, whole, kept, -⟩ := step_stream taken
      rw [Machine.along_cons_of_step taken, ← kept, ← ih later, whole, List.flatten_cons]
      constructor
      · intro same
        have rest := length_run_le later
        have lengths := congrArg List.length same
        simp only [List.length_append] at lengths rest
        have none_lost : lost = [] := List.eq_nil_of_length_eq_zero (by omega)
        subst none_lost
        rw [List.nil_append, List.append_assoc] at same
        exact ⟨rfl, List.append_cancel_left same⟩
      · rintro ⟨rfl, same⟩
        rw [List.append_assoc, same, List.nil_append]

/-- No byte is lost in a sequence of calls if and only if no time-out comes in the middle of a
line. -/
theorem lossless_iff (stream : Bytes) (calls : List Call) (last : NetconCli) (outs : List Bytes)
    (ran : Machine.run step ⟨[], stream⟩ calls = some (last, outs)) :
    Lossless ⟨[], stream⟩ calls last outs ↔
      Machine.Along (fun con call _ _ => call.Quiet con) step ⟨[], stream⟩ calls :=
  ⟨fun lossless => (run_whole_iff ran).mp lossless.whole,
    fun quiet => ⟨(run_whole_iff ran).mpr quiet, lines_ends _ _⟩⟩

theorem getline_again {con next : NetconCli} {events rest : List PipeEvent}
    (again : con.getline 1024 events = some (.timedOut false, next, rest)) :
    getline con events = getline next rest := by
  rw [getline, again]

theorem getline_once {con next : NetconCli} {line : Bytes} {events rest : List PipeEvent}
    (got : con.getline 1024 events = some (.data line, next, rest)) :
    getline con events = some (.data line, next, rest) := by
  rw [getline, got]

theorem step_getline {con next : NetconCli} {line : Bytes} {events : List PipeEvent}
    (got : getline con events = some (.data line, next, [])) :
    step con (.getline events) = some (next, line) := by
  rw [step, got]

theorem run_single {con next : NetconCli} {call : Call} {out : Bytes}
    (taken : step con call = some (next, out)) :
    Machine.run step con [call] = some (next, [out]) := by
  simp only [Machine.run, taken]

/-- A line, after a time-out. -/
theorem lossless_late : Lossless ⟨[], bytes "a: 2\nxy"⟩
    [.getline [.timeout false, .ready 1, .ready 3]] ⟨bytes "x", bytes "y"⟩ [bytes "a: 2\n"] := by
  have first : step ⟨[], bytes "a: 2\nxy"⟩ (.getline [.timeout false, .ready 1, .ready 3]) =
      some (⟨bytes "x", bytes "y"⟩, bytes "a: 2\n") := by
    have line : NetconCli.getline ⟨[], bytes "a: 2\nxy"⟩ 1024 [.ready 1, .ready 3] =
        some (.data (bytes "a: 2\n"), ⟨bytes "x", bytes "y"⟩, []) := by decide +kernel
    exact step_getline ((getline_again rfl).trans (getline_once line))
  refine (lossless_iff _ _ _ _ (run_single first)).mpr ?_
  rw [Machine.along_cons_of_step first]
  exact ⟨⟨rfl, trivial⟩, trivial⟩

/-- The time-out comes after the first byte of the line. -/
theorem not_lossless_interrupted : ¬ ∀ stream calls last outs,
    Machine.run step ⟨[], stream⟩ calls = some (last, outs) →
      Lossless ⟨[], stream⟩ calls last outs := by
  intro lossless
  have first : step ⟨[], bytes "ab\n"⟩ (.getline [.ready 0, .timeout false, .ready 1]) =
      some (⟨[], []⟩, bytes "b\n") :=
    step_getline ((getline_again rfl).trans (getline_once rfl))
  have lost := (lossless _ _ _ _ (run_single first)).whole
  exact absurd lost (by decide)

end ExecCmdTimeout

end Upmpdcli
