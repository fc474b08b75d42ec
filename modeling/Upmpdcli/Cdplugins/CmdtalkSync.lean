import Upmpdcli.Cdplugins.Cmdtalk
import Upmpdcli.Lib.Machine

set_option autoImplicit false

/- The two ends of the command protocol stay at the same message. -/
namespace Upmpdcli.Cmdtalk

/-- The name of an element as both ends read one. -/
structure Named (name : Bytes) : Prop where
  filled : name ≠ []
  no_white : ∀ c ∈ name, whitespace c = false
  stripped : Strip.Stripped colon name

/-- The line of a header, without its end. -/
def headerLine (name : Bytes) (size : Nat) : Bytes :=
  name ++ [byte ':'] ++ byte ' ' :: Decimal.print size

theorem element_eq (name data rest : Bytes) :
    element name data ++ rest =
      headerLine name data.length ++ byte '\n' :: (data ++ rest) := by
  simp [element, header, headerLine]

theorem whitespace_of_digit {c : UInt8} (digit : Decimal.digit c = true) :
    whitespace c = false := by
  simp only [Decimal.digit, Bool.and_eq_true, decide_eq_true_eq, UInt8.le_iff_toNat_le] at digit
  simp only [whitespace, Bool.or_eq_false_iff, Bool.and_eq_false_imp, decide_eq_true_eq,
    decide_eq_false_iff_not, UInt8.le_iff_toNat_le, ← UInt8.toNat_inj]
  have low : (48 : UInt8).toNat = 48 := rfl
  have space : (32 : UInt8).toNat = 32 := rfl
  have ends : (13 : UInt8).toNat = 13 := rfl
  omega

theorem not_white_print (n : Nat) : ∀ c ∈ Decimal.print n, whitespace c = false :=
  fun _ member => whitespace_of_digit (Decimal.digit_of_mem_print member)

section

variable {name : Bytes}

theorem Named.word (named : Named name) : ∀ c ∈ name ++ [byte ':'], whitespace c = false := by
  intro c member
  rcases List.mem_append.mp member with inside | sign
  · exact named.no_white c inside
  · rw [List.mem_singleton.mp sign]
    decide

theorem Named.one_line (named : Named name) (size : Nat) : byte '\n' ∉ headerLine name size := by
  intro member
  rcases List.mem_append.mp member with word | behind
  · exact absurd (named.word _ word) (by decide)
  · rcases List.mem_cons.mp behind with space | digits
    · exact absurd space (by decide)
    · exact absurd (not_white_print size _ digits) (by decide)

theorem Named.strip_colon (named : Named name) : Strip.strip colon (name ++ [byte ':']) = name := by
  rw [Strip.strip_concat (by decide), Strip.strip_of_stripped named.stripped]

theorem Named.rdropWhile_colon (named : Named name) : (name ++ [byte ':']).rdropWhile colon = name := by
  rw [List.rdropWhile_concat_pos _ _ _ (by decide), Strip.rdropWhile_of_last named.stripped.last]

end

/-- Both ways to read numbers agree with how they are printed. -/
theorem pyDigits_digits {digits : Bytes} (all : ∀ c ∈ digits, Decimal.digit c = true) (n : Nat) :
    pyDigits digits n = some (Decimal.value digits n) := by
  induction digits generalizing n with
  | nil => rfl
  | cons c digits ih =>
      rw [List.forall_mem_cons] at all
      rw [pyDigits, if_pos all.1, ih all.2]
      rfl

theorem head_print (n : Nat) :
    ∃ c digits, Decimal.print n = c :: digits ∧ Decimal.digit c = true := by
  obtain ⟨c, digits, whole⟩ := List.exists_cons_of_ne_nil (Decimal.print_ne_nil n)
  exact ⟨c, digits, whole, Decimal.digit_of_mem_print (whole ▸ List.mem_cons_self)⟩

theorem pyInt_print (n : Nat) : pyInt (Decimal.print n) = some (n : Int) := by
  obtain ⟨c, digits, whole, digit⟩ := head_print n
  have no_minus : c ≠ byte '-' := by
    rintro rfl
    exact absurd digit (by decide)
  have no_plus : c ≠ byte '+' := by
    rintro rfl
    exact absurd digit (by decide)
  have read : pyDigits (Decimal.print n) 0 = some (Decimal.value (Decimal.print n) 0) :=
    pyDigits_digits (fun c member => Decimal.digit_of_mem_print member) 0
  rw [Decimal.value_print] at read
  unfold pyInt pyNat
  rw [whole] at read ⊢
  simp [no_minus, no_plus, digit, read]

theorem scanInt_print {n : Nat} (small : n < 2 ^ 31) {c : UInt8}
    (no_digit : Decimal.digit c = false) (behind : Bytes) :
    scanInt (Decimal.print n ++ c :: behind) = some (n : Int) := by
  have digits : (Decimal.print n ++ c :: behind).takeWhile Decimal.digit = Decimal.print n := by
    rw [List.takeWhile_append_of_pos fun c member => Decimal.digit_of_mem_print member]
    simp [no_digit]
  obtain ⟨first, later, whole, digit⟩ := head_print n
  have head : (Decimal.print n ++ c :: behind).head? = some first := by rw [whole]; rfl
  have no_minus : (Decimal.print n ++ c :: behind).head? ≠ some (byte '-') := by
    rw [head]
    rintro ⟨rfl⟩
    exact absurd digit (by decide)
  have no_plus : (Decimal.print n ++ c :: behind).head? ≠ some (byte '+') := by
    rw [head]
    rintro ⟨rfl⟩
    exact absurd digit (by decide)
  have no_white : (Decimal.print n ++ c :: behind).dropWhile whitespace =
      Decimal.print n ++ c :: behind := by
    apply Strip.dropWhile_of_first
    intro other found
    cases head.symm.trans found
    exact whitespace_of_digit digit
  unfold scanInt
  rw [no_white]
  dsimp only
  rw [if_neg (not_or_intro no_minus no_plus), digits, if_neg (Decimal.print_ne_nil n),
    if_neg no_minus, Decimal.value_print]
  have inside : max (-2 ^ 63) (min (n : Int) (2 ^ 63 - 1)) = n := by omega
  rw [inside, wrap32_of_fits (by omega) (by omega)]

/-- The process reads the element which has been sent. -/
theorem readparam_element {name : Bytes} (named : Named name) (ascii : ∀ c ∈ name, c < 128)
    (nodecodeinput : Bool) (data rest : Bytes) :
    readparam nodecodeinput (element name data ++ rest) =
      .param name (decodeParam nodecodeinput data) rest := by
  have fields : Lines.fields whitespace (headerLine name data.length) =
      [name ++ [byte ':'], Decimal.print data.length] :=
    Lines.fields_pair (by simp) (Decimal.print_ne_nil _) named.word (not_white_print _) (by decide)
  have all_ascii : (name ++ [byte ':']).all (· < 128) = true := by
    rw [List.all_eq_true]
    intro c member
    rcases List.mem_append.mp member with inside | sign
    · simpa using ascii c inside
    · rw [List.mem_singleton.mp sign]
      decide
  rw [element_eq]
  unfold readparam
  rw [Lines.cut_append (named.one_line _)]
  dsimp only
  rw [if_neg (by simp [headerLine]), fields]
  dsimp only
  rw [if_pos all_ascii, pyInt_print]
  dsimp only
  rw [Int.toNat_natCast, if_pos (by simp), named.rdropWhile_colon, List.take_left, List.drop_left]

theorem readparam_end (nodecodeinput : Bool) (rest : Bytes) :
    readparam nodecodeinput (byte '\n' :: rest) = .param [] (.bytes []) rest := by
  unfold readparam
  rw [show byte '\n' :: rest = [] ++ byte '\n' :: rest from rfl, Lines.cut_append List.not_mem_nil]
  rfl

/-- What the process makes of a message. -/
def params (nodecodeinput : Bool) (sent : Message) (start : Params) : Params :=
  sent.foldl (fun params entry => VarMap.set params entry.1 (decodeParam nodecodeinput entry.2)) start

/-- A message which leaves room for the empty line is read whole. -/
theorem readParams_sent {sent : Message} (named : ∀ entry ∈ sent, Named entry.1)
    (ascii : ∀ entry ∈ sent, ∀ c ∈ entry.1, c < 128) (nodecodeinput : Bool) {n : Nat}
    (few : sent.length < n) (rest : Bytes) (start : Params) :
    readParams nodecodeinput n
        (sent.flatMap (fun entry => element entry.1 entry.2) ++ byte '\n' :: rest) start =
      .message (params nodecodeinput sent start) rest := by
  induction sent generalizing n start with
  | nil =>
      cases n with
      | zero => cases few
      | succ n =>
          rw [List.flatMap_nil, List.nil_append, readParams, readparam_end]
          rfl
  | cons entry sent ih =>
      rw [List.forall_mem_cons] at named ascii
      cases n with
      | zero => cases few
      | succ n =>
          rw [List.length_cons] at few
          rw [List.flatMap_cons, List.append_assoc, readParams,
            readparam_element named.1 ascii.1]
          dsimp only
          rw [if_neg named.1.filled, ih named.2 ascii.2 (by omega)]
          rfl

section

variable {con : NetconData} {name data rest : Bytes}

/-- The host reads the element which has been sent, if the line of its header fits into the
buffer. -/
theorem readDataElement_element (named : Named name)
    (fits : (header name data.length).length ≤ 1023) (small : data.length < 2 ^ 31)
    (whole : con.stream = element name data ++ rest) :
    ∃ after, readDataElement con = .element (name ++ [byte ':']) data after ∧
      after.stream = rest ∧ after.eof = con.eof := by
  have header_eq : header name data.length = headerLine name data.length ++ [byte '\n'] := by
    simp [header, headerLine]
  rw [header_eq, List.length_append, List.length_singleton] at fits
  rw [element_eq] at whole
  obtain ⟨behind, got, stream, eof⟩ := ExecCmd.getline_reads whole (named.one_line _) (by omega)
  have blank_white (c : UInt8) (white : whitespace c = false) :
      (decide (c = byte ' ') || decide (c = byte '\t')) = false := by
    rw [Bool.or_eq_false_iff, decide_eq_false_iff_not, decide_eq_false_iff_not]
    constructor
    · rintro rfl
      exact absurd white (by decide)
    · rintro rfl
      exact absurd white (by decide)
  have fields : Lines.fields (fun c => c = byte ' ' || c = byte '\t')
      (headerLine name data.length ++ [byte '\n']) =
      [name ++ [byte ':'], Decimal.print data.length ++ [byte '\n']] := by
    unfold headerLine
    rw [List.append_assoc, List.cons_append]
    apply Lines.fields_pair (by simp) (by simp)
    · exact fun c member => blank_white c (named.word c member)
    · intro c member
      rcases List.mem_append.mp member with digits | ended
      · exact blank_white c (not_white_print _ c digits)
      · rw [List.mem_singleton.mp ended]
        decide
    · decide
  unfold readDataElement
  rw [got]
  dsimp only
  have not_end : headerLine name data.length ++ [byte '\n'] ≠ [byte '\n'] := by
    intro same
    have lengths := congrArg List.length same
    simp only [headerLine, List.length_append, List.length_cons, List.length_nil] at lengths
    omega
  rw [if_neg (by simp), if_neg not_end, fields]
  dsimp only
  rw [scanInt_print small (by decide)]
  dsimp only
  by_cases empty : data = []
  · subst empty
    rw [if_neg (by simp)]
    exact ⟨behind, rfl, stream, eof⟩
  · have long := List.length_pos_iff.mpr empty
    obtain ⟨after, received, after_stream, after_eof⟩ := ExecCmd.receive_reads empty stream
    rw [if_pos (by omega), Int.toNat_natCast, received]
    dsimp only
    rw [if_pos rfl]
    exact ⟨after, rfl, after_stream, after_eof.trans eof⟩

theorem readDataElement_end (whole : con.stream = byte '\n' :: rest) :
    ∃ after, readDataElement con = .ended after ∧ after.stream = rest ∧ after.eof = con.eof := by
  obtain ⟨after, got, stream, eof⟩ :=
    ExecCmd.getline_reads (show con.stream = [] ++ byte '\n' :: rest from whole) List.not_mem_nil
      (by decide)
  refine ⟨after, ?_, stream, eof⟩
  unfold readDataElement
  rw [got]
  rfl

theorem readAnswer_element {after : NetconData} {rep : Message}
    (read : readDataElement con = .element name data after) :
    readAnswer con rep = readAnswer after (VarMap.set rep (Strip.strip colon name) data) := by
  rw [readAnswer]
  split
  · rename_i other
    cases other.symm.trans read
  · rename_i other
    cases other.symm.trans read
  · rename_i other
    cases other.symm.trans read
  · rename_i other
    cases other.symm.trans read
    rfl

theorem readAnswer_end {after : NetconData} {rep : Message}
    (read : readDataElement con = .ended after) : readAnswer con rep = .done rep after := by
  rw [readAnswer]
  split
  · rename_i other
    cases other.symm.trans read
  · rename_i other
    cases other.symm.trans read
  · rename_i other
    cases other.symm.trans read
    rfl
  · rename_i other
    cases other.symm.trans read

end

/-- What the host makes of an answer. -/
def replied (fields : Params) (start : Message) : Message :=
  fields.foldl (fun rep field => VarMap.set rep field.1 (makebytes field.2)) start

/-- The answers which the host can read. -/
structure AnswerFits (fields : Params) : Prop where
  lines : ∀ field ∈ fields, (header field.1 (makebytes field.2).length).length ≤ 1023
  sizes : ∀ field ∈ fields, (makebytes field.2).length < 2 ^ 31

/-- An answer is read whole, however the reads cut it. -/
theorem readAnswer_answer {fields : Params} (named : ∀ field ∈ fields, Named field.1)
    (fits : AnswerFits fields) {con : NetconData} (rep : Message) (rest : Bytes)
    (whole : con.stream = fields.flatMap (fun field => senditem field.1 field.2) ++
      byte '\n' :: rest) :
    ∃ after, readAnswer con rep = .done (replied fields rep) after ∧ after.stream = rest ∧
      after.eof = con.eof := by
  induction fields generalizing con rep with
  | nil =>
      obtain ⟨after, read, stream, eof⟩ := readDataElement_end whole
      exact ⟨after, readAnswer_end read, stream, eof⟩
  | cons field fields ih =>
      obtain ⟨lines, sizes⟩ := fits
      rw [List.forall_mem_cons] at named lines sizes
      rw [List.flatMap_cons, List.append_assoc] at whole
      obtain ⟨middle, read, stream, eof⟩ :=
        readDataElement_element named.1 lines.1 sizes.1 whole
      obtain ⟨after, found, after_stream, after_eof⟩ := ih named.2 ⟨lines.2, sizes.2⟩
        (VarMap.set rep field.1 (makebytes field.2)) stream
      refine ⟨after, ?_, after_stream, after_eof.trans eof⟩
      rw [readAnswer_element read, named.1.strip_colon, found]
      rfl

/-- The map of a call: names which both ends can read, once each, and values which are
UTF-8. -/
structure Call.Wellformed (call : Call) : Prop where
  named : ∀ entry ∈ call.sent, Named entry.1
  distinct : (call.sent.map Prod.fst).Nodup
  utf8 : ∀ entry ∈ call.sent, (decodeUtf8 entry.2).isSome

/-- The map of an answer. -/
structure Answerable (fields : Params) : Prop where
  named : ∀ field ∈ fields, Named field.1
  distinct : (fields.map Prod.fst).Nodup

/-- The calls which the process can read. -/
structure Call.Fits (call : Call) : Prop where
  few : call.sent.length < 10
  ascii : ∀ entry ∈ call.sent, ∀ c ∈ entry.1, c < 128
  short : call.request.length < 2 ^ 31

/-- Both ends are at the beginning of a message. -/
structure Boundary (s : CmdTalk) : Prop where
  running : s.running = true
  ready : s.waiting = false
  toCmd : s.toCmd = []
  fromCmd : s.fromCmd.stream = []
  eof : s.fromCmd.eof = false

theorem makebytes_decodeParam (nodecodeinput : Bool) {data : Bytes}
    (utf8 : (decodeUtf8 data).isSome) : makebytes (decodeParam nodecodeinput data) = data := by
  obtain ⟨text, decoded⟩ := Option.isSome_iff_exists.mp utf8
  have same : makebytes (.str text) = data := by
    unfold decodeUtf8 String.fromUTF8? at decoded
    split at decoded
    · cases decoded
      rfl
    · cases decoded
  unfold decodeParam
  rw [decoded]
  split
  · rfl
  · exact same

section

variable (process : List Params → Processed) (nodecodeinput : Bool)

theorem mainloop_empty {s : CmdTalk} (empty : s.toCmd = []) :
    mainloop process nodecodeinput s = s := by
  have waiting : readParams nodecodeinput 10 s.toCmd [] = .waiting := by
    rw [empty]
    rfl
  rw [mainloop]
  split
  · rfl
  · rename_i other
    cases other.symm.trans waiting
  · rename_i other
    cases other.symm.trans waiting

/-- One request makes one answer. -/
theorem mainloop_request {s : CmdTalk} {call : Call} (wellformed : call.Wellformed)
    (fits : call.Fits) (sent : s.toCmd = call.request) :
    mainloop process nodecodeinput s = { s with
      toCmd := []
      received := s.received ++ [params nodecodeinput call.sent []]
      fromCmd := { s.fromCmd with
        fd := s.fromCmd.fd ++
          answer (outfields (process (s.received ++ [params nodecodeinput call.sent []]))) } } := by
  have read : readParams nodecodeinput 10 s.toCmd [] =
      .message (params nodecodeinput call.sent []) [] := by
    rw [sent]
    exact readParams_sent wellformed.named fits.ascii nodecodeinput fits.few [] []
  rw [mainloop]
  split
  · rename_i other
    cases other.symm.trans read
  · rename_i other
    cases other.symm.trans read
  · rename_i other
    cases other.symm.trans read
    exact mainloop_empty process nodecodeinput rfl

/-- An exchange starts and ends between two messages. -/
theorem talk_fits {s : CmdTalk} {call : Call} (boundary : Boundary s)
    (wellformed : call.Wellformed) (fits : call.Fits) {fields : Params}
    (fields_eq : outfields (process (s.received ++ [params nodecodeinput call.sent []])) = fields)
    (answerable : Answerable fields) (answer_fits : AnswerFits fields) :
    ∃ t status, talk process nodecodeinput s call = (t, .done status (replied fields [])) ∧
      t.received = s.received ++ [params nodecodeinput call.sent []] ∧ Boundary t := by
  have served := mainloop_request process nodecodeinput
    (s := { s with
      toCmd := s.toCmd ++ call.request
      fromCmd := { s.fromCmd with sizes := call.sizes } })
    wellformed fits (by rw [boundary.toCmd]; rfl)
  have stream : ({ s.fromCmd with
      sizes := call.sizes
      fd := s.fromCmd.fd ++ answer fields } : NetconData).stream =
      fields.flatMap (fun field => senditem field.1 field.2) ++ byte '\n' :: [] := by
    have empty := boundary.fromCmd
    unfold NetconData.stream at empty ⊢
    rw [← List.append_assoc, empty]
    rfl
  obtain ⟨con, read, after_stream, eof⟩ :=
    readAnswer_answer answerable.named answer_fits [] [] stream
  unfold talk
  rw [if_neg (by simp [boundary.ready]), if_neg (by simp [boundary.running]),
    if_neg (Nat.not_le.mpr fits.short)]
  dsimp only
  rw [served]
  dsimp only
  rw [fields_eq, read]
  exact ⟨_, _, rfl, rfl, boundary.running, boundary.ready, rfl, after_stream,
    eof.trans boundary.eof⟩

/-- What an exchange is for: the process has been given the map which was sent, the host has
got the map which the process returned, and the next message starts at both ends. -/
structure Exchanged (s : CmdTalk) (call : Call) (t : CmdTalk) (reply : Reply) : Prop where
  received : ∃ map, t.received = s.received ++ [map] ∧
    ∀ name, (VarMap.find map name).map makebytes = VarMap.find call.sent name
  replied : ∃ status rep, reply = .done status rep ∧
    ∀ name, VarMap.find rep name =
      (VarMap.find (outfields (process t.received)) name).map makebytes
  boundary : Boundary t

theorem find_params {sent : Message} (distinct : (sent.map Prod.fst).Nodup)
    (utf8 : ∀ entry ∈ sent, (decodeUtf8 entry.2).isSome) (name : Bytes) :
    (VarMap.find (params nodecodeinput sent []) name).map makebytes = VarMap.find sent name := by
  have set : VarMap.find (params nodecodeinput sent []) name =
      (VarMap.find sent name).map (decodeParam nodecodeinput) :=
    VarMap.find_foldl_set (decodeParam nodecodeinput) distinct name
  rw [set, Option.map_map]
  exact VarMap.find_map_of_fixed
    (fun entry member => makebytes_decodeParam nodecodeinput (utf8 entry member)) name

theorem find_replied {fields : Params} (distinct : (fields.map Prod.fst).Nodup) (name : Bytes) :
    VarMap.find (replied fields []) name = (VarMap.find fields name).map makebytes :=
  VarMap.find_foldl_set makebytes distinct name

/-- A name with neither colons nor white space in it. -/
theorem named_of_plain {name : Bytes} (filled : name ≠ [])
    (plain : name.all (fun c => ! whitespace c && ! colon c) = true) : Named name := by
  have each (c : UInt8) (member : c ∈ name) : whitespace c = false ∧ colon c = false := by
    simpa using List.all_eq_true.mp plain c member
  exact ⟨filled, fun c member => (each c member).1,
    fun c found => (each c (List.mem_of_head? found)).2,
    fun c found => (each c (List.mem_of_getLast? found)).2⟩

theorem answerable_outfields {processed : Processed}
    (answerable : ∀ fields, processed = .fields fields → Answerable fields) :
    Answerable (outfields processed) := by
  cases processed with
  | fields fields => exact answerable fields rfl
  | raised err =>
      constructor
      · intro field member
        simp only [outfields, List.mem_cons, List.not_mem_nil, or_false] at member
        rcases member with rfl | rfl
        · show Named (bytes "cmdtalkstatus")
          exact named_of_plain (by decide) (by decide)
        · show Named (bytes "cmdtalkerrstr")
          exact named_of_plain (by decide) (by decide)
      · show [bytes "cmdtalkstatus", bytes "cmdtalkerrstr"].Nodup
        decide

/-- What an exchange needs: fewer than ten elements, names in ASCII, a request and values of
less than 2 GiB, and an answer whose headers fit into the buffer of the host. -/
def ExchangeFits (s : CmdTalk) (call : Call) : Prop :=
  call.Fits ∧
    AnswerFits (outfields (process (s.received ++ [params nodecodeinput call.sent []])))

def step (s : CmdTalk) (call : Call) : Option (CmdTalk × Reply) :=
  some (talk process nodecodeinput s call)

/-- Over any sequence of calls which the process can read, and with answers which the host
can read, both ends stay at the same message. -/
theorem talk_synchronised (calls : List Call) (wellformed : ∀ call ∈ calls, call.Wellformed)
    (answerable : ∀ received fields, process received = .fields fields → Answerable fields)
    (fits : Machine.Along (fun s call _ _ => ExchangeFits process nodecodeinput s call)
      (step process nodecodeinput) {} calls) :
    Machine.Along (Exchanged process) (step process nodecodeinput) {} calls := by
  have start : Boundary {} := ⟨rfl, rfl, rfl, rfl, rfl⟩
  have exchange (s : CmdTalk) (call : Call) (t : CmdTalk) (reply : Reply) (boundary : Boundary s)
      (guard : ExchangeFits process nodecodeinput s call ∧ call.Wellformed)
      (taken : step process nodecodeinput s call = some (t, reply)) :
      Boundary t ∧ Exchanged process s call t reply := by
    obtain ⟨⟨call_fits, answer_fits⟩, call_wellformed⟩ := guard
    have answer := answerable_outfields
      (answerable (s.received ++ [params nodecodeinput call.sent []]))
    obtain ⟨after, status, talked, received, kept⟩ := talk_fits process nodecodeinput boundary
      call_wellformed call_fits rfl answer answer_fits
    cases (Option.some.inj taken).symm.trans talked
    refine ⟨kept, ⟨_, received, ?_⟩, ⟨status, _, rfl, ?_⟩, kept⟩
    · exact find_params nodecodeinput call_wellformed.distinct call_wellformed.utf8
    · rw [received]
      exact find_replied answer.distinct
  exact Machine.along_of_invariant exchange _ _ start
    (Machine.along_and_of_forall _ _ wellformed fits)

theorem step_eq (s : CmdTalk) (call : Call) :
    step process nodecodeinput s call = some ((talk process nodecodeinput s call).1,
      (talk process nodecodeinput s call).2) := rfl

end

/-- A processor which always returns the same text, on two lines. -/
def sameText (_ : List Params) : Processed := .fields [(bytes "entries", .str "[\n\u00e9]")]

theorem sameText_answerable (received : List Params) (fields : Params)
    (same : sameText received = .fields fields) : Answerable fields := by
  cases same
  constructor
  · intro field member
    rw [List.mem_singleton.mp member]
    show Named (bytes "entries")
    exact named_of_plain (by decide) (by decide)
  · exact List.nodup_singleton _

theorem sameText_fits (received : List Params) : AnswerFits (outfields (sameText received)) := by
  constructor
  · intro field member
    rw [List.mem_singleton.mp member]
    decide
  · intro field member
    rw [List.mem_singleton.mp member]
    decide

theorem named_proc : Named (bytes "cmdtalk:proc") := by
  refine ⟨by decide, ?_, ?_, ?_⟩
  · decide +kernel
  · intro c found
    cases found
    decide
  · intro c found
    have last : (bytes "cmdtalk:proc").getLast? = some (byte 'c') := by decide
    cases last.symm.trans found
    decide

/-- The call of a procedure. -/
def browse : Call where
  arg0 := (bytes "cmdtalk:proc", bytes "browse")
  args := [(bytes "objid", [195, 169])]
  sizes := [0, 7, 1]

/-- A map with a value which looks like an element and the end of a message. -/
def lookalike : Call where
  args := [(bytes "value", bytes "a: 3\n\n"), (bytes "empty", [])]

theorem browse_wellformed : browse.Wellformed := by
  refine ⟨?_, by decide, by decide⟩
  intro entry member
  have cases_of : entry = (bytes "cmdtalk:proc", bytes "browse") ∨
      entry = (bytes "objid", [195, 169]) := by simpa [browse, Call.sent, bytes] using member
  rcases cases_of with rfl | rfl
  · exact named_proc
  · exact named_of_plain (by decide) (by decide)

theorem lookalike_wellformed : lookalike.Wellformed := by
  have plain : ∀ entry ∈ lookalike.sent, entry.1 ≠ [] ∧
      entry.1.all (fun c => ! whitespace c && ! colon c) = true := by decide
  exact ⟨fun entry member => named_of_plain (plain entry member).1 (plain entry member).2,
    by decide, by decide⟩

theorem talk_synchronised_browse :
    Machine.Along (Exchanged sameText) (step sameText false) {} [browse, lookalike] := by
  apply talk_synchronised sameText false
  · intro call member
    simp only [List.mem_cons, List.not_mem_nil, or_false] at member
    rcases member with rfl | rfl
    · exact browse_wellformed
    · exact lookalike_wellformed
  · exact sameText_answerable
  · rw [Machine.along_cons_of_step (step_eq sameText false _ _),
      Machine.along_cons_of_step (step_eq sameText false _ _)]
    exact ⟨⟨⟨by decide, by decide +kernel, by decide⟩, sameText_fits _⟩,
      ⟨⟨by decide, by decide +kernel, by decide⟩, sameText_fits _⟩, trivial⟩

/-- Ten parameters, one more than the process reads with the empty line. -/
def tenParameters : Call := { args := (List.range 10).map fun i => (Decimal.print i, bytes "v") }

theorem ten_parameters_not_synchronised :
    (∀ entry ∈ tenParameters.sent, entry.1 ≠ [] ∧
      entry.1.all (fun c => ! whitespace c && ! colon c) = true) ∧ tenParameters.Wellformed ∧
    (∀ received fields, sameText received = .fields fields → Answerable fields) ∧
    ¬ Machine.Along (Exchanged sameText) (step sameText false) {} [tenParameters] := by
  have plain : ∀ entry ∈ tenParameters.sent, entry.1 ≠ [] ∧
      entry.1.all (fun c => ! whitespace c && ! colon c) = true := by decide
  refine ⟨plain, ⟨fun entry member => named_of_plain (plain entry member).1 (plain entry member).2,
    by decide, by decide⟩, sameText_answerable, fun synchronised => ?_⟩
  rw [Machine.along_cons_of_step (step_eq sameText false _ _)] at synchronised
  have left_over : (talk sameText false {} tenParameters).1.fromCmd.stream ≠ [] := by
    decide +kernel
  exact left_over synchronised.1.boundary.fromCmd

end Upmpdcli.Cmdtalk
