import Mathlib.Data.List.Basic
import Upmpdcli.Bytes

set_option autoImplicit false

/- Reading from the end of a pipe, by lines and by counts of bytes. -/
namespace Upmpdcli

/-- A connection: what a `getline` has left in the buffer, what the kernel holds, and how much
each `read` is going to return. -/
structure NetconData where
  mbuf : Bytes := []
  fd : Bytes := []
  sizes : List Nat := []
  /-- The other end has been closed. -/
  eof : Bool := false
deriving DecidableEq

namespace NetconData

/-- What is still to be read. -/
def stream (con : NetconData) : Bytes := con.mbuf ++ con.fd

/-- `read`, which waits if there is nothing to read, and else returns at least one byte. -/
def read (con : NetconData) (cnt : Nat) : Option (Bytes × NetconData) :=
  if con.fd = [] then if con.eof then some ([], con) else none
  else
    let n := min cnt (con.sizes.headD cnt + 1)
    some (con.fd.take n, { con with fd := con.fd.drop n, sizes := con.sizes.tail })

/-- At most `cnt` bytes: first the ones in the buffer. -/
def receive (con : NetconData) (cnt : Nat) : Option (Bytes × NetconData) :=
  let got := con.mbuf.take cnt
  let con := { con with mbuf := con.mbuf.drop cnt }
  if got ≠ [] ∧ cnt ≤ got.length then some (got, con)
  else (con.read (cnt - got.length)).map fun (more, con) => (got ++ more, con)

/-- The transfer of at most so many bytes, up to the end of a line. -/
def transfer : Nat → Bytes → Bytes × Bytes
  | 0, buf => ([], buf)
  | _ + 1, [] => ([], [])
  | n + 1, c :: rest =>
      if c = byte '\n' then ([c], rest)
      else
        let (line, rest) := transfer n rest
        (c :: line, rest)

def defbufsize : Nat := 200

theorem length_read {con after : NetconData} {got : Bytes} (read : con.read defbufsize = some (got, after))
    (some_got : got ≠ []) : after.fd.length < con.fd.length := by
  unfold NetconData.read at read
  split at read
  · split at read
    · cases read
      exact absurd rfl some_got
    · cases read
  · rename_i filled
    have long := List.length_pos_iff.mpr filled
    cases read
    simp only [defbufsize, List.length_drop]
    omega

/-- The loop of `getline`, with what is left of `cnt`. -/
def getlineLoop (con : NetconData) (cnt : Nat) (line : Bytes) : Option (Bytes × NetconData) :=
  match transfer (cnt - 1) con.mbuf with
  | (moved, rest) =>
      let line := line ++ moved
      let cnt := cnt - moved.length
      if cnt ≤ 1 ∨ line.getLast? = some (byte '\n') then some (line, { con with mbuf := rest })
      else
        -- the buffer has been used up
        match _got : con.read defbufsize with
        | none => none
        | some ([], con) => some (line, { con with mbuf := [] })
        | some (c :: got, con) => getlineLoop { con with mbuf := c :: got } cnt line
termination_by con.fd.length
decreasing_by exact length_read _got (List.cons_ne_nil _ _)

def getline (con : NetconData) (cnt : Nat) : Option (Bytes × NetconData) :=
  con.getlineLoop cnt []

/-- The same pipe later on: what has been read goes before what is still to be read. -/
structure Reads (con : NetconData) (got : Bytes) (after : NetconData) : Prop where
  stream : con.stream = got ++ after.stream
  eof : after.eof = con.eof

/-- A read gets something as long as there is something to get. -/
theorem read_reads (con : NetconData) (filled : con.fd ≠ []) {cnt : Nat} (some_count : 0 < cnt) :
    ∃ got after, con.read cnt = some (got, after) ∧ got ≠ [] ∧ got.length ≤ cnt ∧
      con.fd = got ++ after.fd ∧ after.mbuf = con.mbuf ∧ after.eof = con.eof := by
  have long := List.length_pos_iff.mpr filled
  unfold NetconData.read
  rw [if_neg filled]
  refine ⟨_, _, rfl, ?_, ?_, (List.take_append_drop _ _).symm, rfl, rfl⟩
  · apply List.ne_nil_of_length_pos
    rw [List.length_take]
    omega
  · rw [List.length_take]
    omega

theorem receive_reads {con : NetconData} {cnt : Nat} (some_count : 0 < cnt)
    (enough : cnt ≤ con.stream.length) :
    ∃ got after, con.receive cnt = some (got, after) ∧ got ≠ [] ∧ got.length ≤ cnt ∧
      con.Reads got after := by
  unfold NetconData.stream at enough
  rw [List.length_append] at enough
  unfold NetconData.receive
  dsimp only
  split
  · rename_i buffered
    refine ⟨_, _, rfl, buffered.1, List.length_take_le _ _, ?_, rfl⟩
    unfold NetconData.stream
    rw [← List.append_assoc, List.take_append_drop]
  · rename_i short
    have used : con.mbuf.length < cnt := by
      by_contra long
      apply short
      rw [List.length_take, ← List.length_pos_iff, List.length_take]
      omega
    rw [List.take_of_length_le (by omega), List.drop_of_length_le (by omega)]
    have filled : con.fd ≠ [] := by
      rw [← List.length_pos_iff]
      omega
    obtain ⟨got, after, read, some_got, few, whole, same, eof⟩ :=
      read_reads { con with mbuf := [] } filled (Nat.sub_pos_of_lt used)
    rw [read]
    refine ⟨_, _, rfl, List.append_ne_nil_of_right_ne_nil _ some_got, ?_, ?_, eof⟩
    · show (con.mbuf ++ got).length ≤ cnt
      rw [List.length_append]
      omega
    · unfold NetconData.stream
      rw [same, List.nil_append, List.append_assoc, ← whole]

theorem transfer_line {line : Bytes} (absent : byte '\n' ∉ line) (rest : Bytes) {n : Nat}
    (fits : line.length < n) : transfer n (line ++ byte '\n' :: rest) = (line ++ [byte '\n'], rest) := by
  induction line generalizing n with
  | nil =>
      cases n with
      | zero => cases fits
      | succ n => simp [transfer]
  | cons c line ih =>
      rw [List.mem_cons, not_or] at absent
      cases n with
      | zero => cases fits
      | succ n =>
          rw [List.length_cons] at fits
          rw [List.cons_append, transfer, if_neg (Ne.symm absent.1), ih absent.2 (by omega)]
          rfl

/-- Without the end of a line, all the buffer is transferred. -/
theorem transfer_all {buf : Bytes} (absent : byte '\n' ∉ buf) {n : Nat} (fits : buf.length ≤ n) :
    transfer n buf = (buf, []) := by
  induction buf generalizing n with
  | nil => cases n <;> rfl
  | cons c buf ih =>
      rw [List.mem_cons, not_or] at absent
      cases n with
      | zero => cases fits
      | succ n =>
          rw [List.length_cons] at fits
          rw [transfer, if_neg (Ne.symm absent.1), ih absent.2 (by omega)]

theorem transfer_append (n : Nat) (buf : Bytes) :
    (transfer n buf).1 ++ (transfer n buf).2 = buf := by
  induction n generalizing buf with
  | zero => rfl
  | succ n ih =>
      cases buf with
      | nil => rfl
      | cons c rest =>
          unfold transfer
          split
          · rfl
          · exact congrArg (c :: ·) (ih rest)

/-- Something is left in the buffer only behind a line, or when the count is used up. -/
theorem transfer_left (n : Nat) (buf : Bytes) (left : (transfer n buf).2 ≠ []) :
    (transfer n buf).1.length = n ∨ (transfer n buf).1.getLast? = some (byte '\n') := by
  induction n generalizing buf with
  | zero => exact .inl rfl
  | succ n ih =>
      cases buf with
      | nil => exact absurd rfl left
      | cons c rest =>
          unfold transfer at left ⊢
          split at left
          · rename_i ended
            rw [if_pos ended, ended]
            exact .inr rfl
          · rename_i inside
            rw [if_neg inside]
            rcases ih rest left with full | ended
            · exact .inl (congrArg (· + 1) full)
            · refine .inr ?_
              have some_moved : (transfer n rest).1 ≠ [] := fun empty => by simp [empty] at ended
              rw [List.getLast?_cons_of_ne_nil some_moved]
              exact ended

theorem read_conserves {con after : NetconData} {cnt : Nat} {got : Bytes}
    (read : con.read cnt = some (got, after)) :
    con.fd = got ++ after.fd ∧ after.mbuf = con.mbuf ∧ after.eof = con.eof := by
  unfold NetconData.read at read
  split at read
  · split at read
    · cases read
      exact ⟨rfl, rfl, rfl⟩
    · cases read
  · cases read
    exact ⟨(List.take_append_drop _ _).symm, rfl, rfl⟩

theorem receive_conserves {con after : NetconData} {cnt : Nat} {got : Bytes}
    (some_count : 0 < cnt) (received : con.receive cnt = some (got, after)) : con.stream = got ++ after.stream := by
  unfold NetconData.receive at received
  dsimp only at received
  unfold NetconData.stream
  split at received
  · cases received
    rw [← List.append_assoc, List.take_append_drop]
  · rename_i short
    obtain ⟨⟨more, next⟩, read, same⟩ := Option.map_eq_some_iff.mp received
    cases same
    obtain ⟨split_fd, same_buf, -⟩ := read_conserves read
    dsimp only at split_fd same_buf
    have used : con.mbuf.length ≤ cnt := by
      by_contra long
      apply short
      rw [List.length_take, ← List.length_pos_iff, List.length_take]
      omega
    rw [split_fd, same_buf, List.take_of_length_le used, List.drop_of_length_le used,
      List.nil_append, List.append_assoc]

/-- No byte is lost between two reads. -/
theorem getlineLoop_conserves {con after : NetconData} {cnt : Nat} {acc line : Bytes}
    (got : con.getlineLoop cnt acc = some (line, after)) :
    acc ++ con.stream = line ++ after.stream := by
  induction size : con.fd.length using Nat.strong_induction_on generalizing con cnt acc with
  | _ left_over ih =>
      have whole := transfer_append (cnt - 1) con.mbuf
      rw [getlineLoop] at got
      unfold NetconData.stream
      rw [← whole]
      split at got
      rename_i moved rest moved_eq
      dsimp only at got
      split at got
      · cases got
        rw [moved_eq, List.append_assoc, List.append_assoc]
      · rename_i more
        have none_left : rest = [] := by
          by_contra left
          have stopped : moved.length = cnt - 1 ∨ moved.getLast? = some (byte '\n') := by
            simpa only [moved_eq] using transfer_left (cnt - 1) con.mbuf
              (by simpa only [moved_eq] using left)
          rcases stopped with full | ended
          · exact more (.inl (by omega))
          · refine more (.inr ?_)
            have some_moved : moved ≠ [] := fun empty => by simp [empty] at ended
            rw [List.getLast?_append_of_ne_nil _ some_moved]
            exact ended
        rw [moved_eq, none_left, List.append_nil]
        split at got
        · cases got
        · rename_i read
          cases got
          rw [(read_conserves read).1, List.append_assoc]
        · rename_i c more_got next read
          have shorter : next.fd.length < left_over := by
            rw [← size]
            exact length_read read (List.cons_ne_nil _ _)
          rw [(read_conserves read).1]
          have later := ih _ shorter got rfl
          rw [List.append_assoc] at later
          exact later

theorem getlineLoop_read {con after : NetconData} {cnt : Nat} {line moved left got : Bytes}
    {c : UInt8} (moved_eq : transfer (cnt - 1) con.mbuf = (moved, left))
    (more : ¬ (cnt - moved.length ≤ 1 ∨ (line ++ moved).getLast? = some (byte '\n')))
    (read : con.read defbufsize = some (c :: got, after)) :
    con.getlineLoop cnt line =
      { after with mbuf := c :: got }.getlineLoop (cnt - moved.length) (line ++ moved) := by
  rw [getlineLoop, moved_eq]
  dsimp only
  rw [if_neg more]
  split
  · rename_i waiting
    cases waiting.symm.trans read
  · rename_i ended
    cases ended.symm.trans read
  · rename_i found
    cases found.symm.trans read
    rfl

/-- A line which is short enough is read whole, however the reads cut it. -/
theorem getlineLoop_reads {con : NetconData} {cnt : Nat} {acc line rest : Bytes}
    (whole : con.stream = line ++ byte '\n' :: rest) (absent : byte '\n' ∉ line)
    (fits : line.length + 1 < cnt) (inside : byte '\n' ∉ acc) :
    ∃ after, con.getlineLoop cnt acc = some (acc ++ line ++ [byte '\n'], after) ∧
      after.stream = rest ∧ after.eof = con.eof := by
  induction size : con.fd.length using Nat.strong_induction_on generalizing con cnt acc line with
  | _ left_over ih =>
      have unfinished (later : Bytes) (line_eq : line = con.mbuf ++ later)
          (fd_eq : con.fd = later ++ byte '\n' :: rest) :
          ∃ after, con.getlineLoop cnt acc = some (acc ++ line ++ [byte '\n'], after) ∧
            after.stream = rest ∧ after.eof = con.eof := by
        subst line_eq
        rw [List.mem_append, not_or] at absent
        rw [List.length_append] at fits
        have acc_inside : byte '\n' ∉ acc ++ con.mbuf := by
          rw [List.mem_append]
          exact not_or_intro inside absent.1
        have more : ¬ (cnt - con.mbuf.length ≤ 1 ∨
            (acc ++ con.mbuf).getLast? = some (byte '\n')) := by
          rintro (full | ended)
          · omega
          · exact acc_inside (List.mem_of_getLast? ended)
        have filled : con.fd ≠ [] := by simp [fd_eq]
        obtain ⟨got, after, read, some_got, _, fd_split, _, eof⟩ :=
          con.read_reads filled (show 0 < defbufsize by decide)
        have shorter : after.fd.length < left_over := by
          rw [← size]
          exact length_read read some_got
        obtain ⟨c, got, rfl⟩ := List.exists_cons_of_ne_nil some_got
        have stream : ({ after with mbuf := c :: got } : NetconData).stream =
            later ++ byte '\n' :: rest := by
          unfold NetconData.stream
          rw [← fd_split, fd_eq]
        have later_fits : later.length + 1 < cnt - con.mbuf.length := by omega
        obtain ⟨last, found, stream_eq, eof_eq⟩ := ih _ shorter stream absent.2 later_fits
          acc_inside rfl
        refine ⟨last, ?_, stream_eq, eof_eq.trans eof⟩
        rw [getlineLoop_read (transfer_all absent.1 (by omega)) more read, found]
        simp
      unfold NetconData.stream at whole
      rcases List.append_eq_append_iff.mp whole with ⟨later, line_eq, fd_eq⟩ | ⟨behind, buf_eq, rest_eq⟩
      · exact unfinished later line_eq fd_eq
      · cases behind with
        | nil => exact unfinished [] (by simpa using buf_eq.symm) rest_eq.symm
        | cons c behind =>
            rw [List.cons_append, List.cons.injEq] at rest_eq
            obtain ⟨rfl, rest_eq⟩ := rest_eq
            refine ⟨{ con with mbuf := behind }, ?_, rest_eq.symm, rfl⟩
            rw [getlineLoop, buf_eq, transfer_line absent behind (by omega)]
            dsimp only
            rw [if_pos (.inr (by simp))]
            simp

end NetconData

namespace ExecCmd

/-- The loop of `receive` for a count which is not null. -/
def receiveLoop (con : NetconData) (cnt : Nat) (data : Bytes) : Option (Bytes × NetconData) :=
  match con.receive (min (cnt - data.length) 4096) with
  | none => none
  | some (got, con) =>
      if got = [] then some (data, con)
      else if (data ++ got).length < cnt then receiveLoop con cnt (data ++ got)
      else some (data ++ got, con)
termination_by cnt - data.length
decreasing_by
  rename_i some_got short
  have long := List.length_pos_iff.mpr some_got
  rw [List.length_append] at short
  rw [List.length_append]
  omega

def receive (con : NetconData) (cnt : Nat) : Option (Bytes × NetconData) := receiveLoop con cnt []

def getline (con : NetconData) : Option (Bytes × NetconData) := con.getline 1024

theorem receiveLoop_conserves {con after : NetconData} {cnt : Nat} {data all : Bytes}
    (short : data.length < cnt) (received : receiveLoop con cnt data = some (all, after)) :
    data ++ con.stream = all ++ after.stream := by
  induction con, data using receiveLoop.induct cnt with
  | case1 con data waiting =>
      rw [receiveLoop, waiting] at received
      cases received
  | case2 con data next got =>
      rw [receiveLoop, got] at received
      cases received
      rw [NetconData.receive_conserves (by omega) got, List.nil_append]
  | case3 con data got next found some_got more ih =>
      rw [receiveLoop, found] at received
      dsimp only at received
      rw [if_neg some_got, if_pos more] at received
      rw [← ih more received, NetconData.receive_conserves (by omega) found, List.append_assoc]
  | case4 con data got next found some_got enough =>
      rw [receiveLoop, found] at received
      dsimp only at received
      rw [if_neg some_got, if_neg enough] at received
      cases received
      rw [NetconData.receive_conserves (by omega) found, List.append_assoc]

/-- A count of bytes is read whole, however the reads cut it. -/
theorem receiveLoop_reads {con : NetconData} (data : Bytes) {later rest : Bytes}
    (some_later : later ≠ []) (whole : con.stream = later ++ rest) :
    ∃ after, receiveLoop con (data ++ later).length data = some (data ++ later, after) ∧
      after.stream = rest ∧ after.eof = con.eof := by
  induction size : later.length using Nat.strong_induction_on generalizing con data later with
  | _ left_over ih =>
      have long := List.length_pos_iff.mpr some_later
      have count : (data ++ later).length - data.length = later.length := by
        rw [List.length_append]
        omega
      obtain ⟨got, after, received, some_got, few, reads⟩ :=
        NetconData.receive_reads (show 0 < min later.length 4096 by omega)
          (show _ ≤ con.stream.length by rw [whole, List.length_append]; omega)
      obtain ⟨still, rfl⟩ : got <+: later := by
        apply List.prefix_of_prefix_length_le _ (List.prefix_append later rest) (by omega)
        rw [← whole, reads.stream]
        exact List.prefix_append _ _
      have after_eq : after.stream = still ++ rest := by
        rw [reads.stream, List.append_assoc] at whole
        exact List.append_cancel_left whole
      rw [receiveLoop, count, received]
      dsimp only
      rw [if_neg some_got]
      by_cases complete : still = []
      · subst complete
        rw [List.append_nil, if_neg (lt_irrefl _)]
        exact ⟨after, rfl, after_eq, reads.eof⟩
      · have more := List.length_pos_iff.mpr complete
        have some_bytes := List.length_pos_iff.mpr some_got
        rw [List.length_append] at size
        have short : (data ++ got).length < (data ++ got ++ still).length := by
          simp only [List.length_append]
          omega
        rw [← List.append_assoc, if_pos short]
        obtain ⟨last, found, stream_eq, eof_eq⟩ := ih still.length (by omega) (data ++ got)
          complete after_eq rfl
        exact ⟨last, found, stream_eq, eof_eq.trans reads.eof⟩

theorem receive_reads {con : NetconData} {data rest : Bytes} (some_data : data ≠ [])
    (whole : con.stream = data ++ rest) :
    ∃ after, receive con data.length = some (data, after) ∧ after.stream = rest ∧
      after.eof = con.eof := receiveLoop_reads [] some_data whole

theorem getline_reads {con : NetconData} {line rest : Bytes}
    (whole : con.stream = line ++ byte '\n' :: rest) (absent : byte '\n' ∉ line)
    (fits : line.length < 1023) :
    ∃ after, getline con = some (line ++ [byte '\n'], after) ∧ after.stream = rest ∧
      after.eof = con.eof :=
  NetconData.getlineLoop_reads whole absent (by omega) List.not_mem_nil

end ExecCmd

end Upmpdcli
