import Upmpdcli.Bytes
import Upmpdcli.Lib.Lines
import Upmpdcli.Lib.Machine
import Upmpdcli.Lib.VarMap

set_option autoImplicit false

/- The file in which the metadata cache of the playlist is kept, one line for each entry. -/
namespace Upmpdcli

namespace OHMetaCache

def hexDigits : Bytes := "0123456789ABCDEF".toList.map byte

def h (n : UInt8) : UInt8 := hexDigits.getD n.toNat 0

/-- Escape `%`, `=`, and the ends of lines. -/
def encode : Bytes → Bytes
  | [] => []
  | c :: rest =>
      if c = byte '%' ∨ c = byte '=' ∨ c = byte '\n' ∨ c = byte '\r' then
        byte '%' :: h (c >>> 4 &&& 0xf) :: h (c &&& 0xf) :: encode rest
      else c :: encode rest

def h2d (c : UInt8) : Option Nat :=
  if byte '0' ≤ c ∧ c ≤ byte '9' then some (c.toNat - (byte '0').toNat)
  else if byte 'A' ≤ c ∧ c ≤ byte 'F' then some (10 + c.toNat - (byte 'A').toNat)
  else none

/-- The loop of `decode`, which copies the last two bytes as they are. -/
def decodeLoop : Bytes → Bytes
  | c :: d :: e :: rest =>
      if c = byte '%' then
        match h2d d, h2d e with
        | some d1, some d2 => UInt8.ofNat (d1 * 16 + d2) :: decodeLoop rest
        | _, _ => decodeLoop rest
      else c :: decodeLoop (d :: e :: rest)
  | rest => rest

def decode (bytes : Bytes) : Bytes := if bytes.length ≤ 2 then bytes else decodeLoop bytes

/-- `mcache_type`, in the order in which the entries are gone through. -/
abbrev Cache := List (Bytes × Bytes)

def line (entry : Bytes × Bytes) : Bytes := encode entry.1 ++ byte '=' :: encode entry.2

/-- What is written for a cache. -/
def saved : Cache → Bytes
  | [] => []
  | entry :: rest => line entry ++ byte '\n' :: saved rest

/-- What becomes of one save: whether the new file can be opened, how much of it is written
if there is an error, and whether it can be renamed. -/
structure SaveCacheEnv where
  opened : Bool := true
  written : Option Nat := none
  renamed : Bool := true
deriving DecidableEq

/-- One turn of `dmcacheSaveWorker`. A file with a write error is renamed too. -/
def dmcacheSaveWorker (env : SaveCacheEnv) (cache : Cache) (file : Option Bytes) : Option Bytes :=
  if env.opened ∧ env.renamed then
    match env.written with
    | none => some (saved cache)
    | some length => some ((saved cache).take length)
  else file

/-- `istream::getline` with a buffer of this size: the line and what follows it. -/
inductive Getline
  | eof
  | fail
  | line (line rest : Bytes)

def getline (count : Nat) (input : Bytes) : Getline :=
  let (line, rest) := Lines.cut (byte '\n') input
  if line.length + 1 > count then .fail
  else
    match rest with
    | none => .eof
    | some rest => .line line rest

theorem length_getline {count : Nat} {input line rest : Bytes}
    (got : getline count input = .line line rest) : rest.length < input.length := by
  unfold getline at got
  cases cut : Lines.cut (byte '\n') input with
  | mk before behind =>
      rw [cut] at got
      dsimp only at got
      split at got
      · cases got
      · cases behind with
        | none => cases got
        | some behind =>
            cases got
            exact Lines.length_cut cut

/-- `LL`. -/
def lineLength : Nat := 10 * 1024

/-- The loop of `dmcacheRestore`. -/
def restoreLoop (input : Bytes) (cache : Cache) : Bool × Cache :=
  match got : getline (lineLength - 1) input with
  | .eof => (true, cache)
  | .fail => (false, cache)
  | .line cline rest =>
      have _shorter : rest.length < input.length := length_getline got
      match Lines.cut (byte '=') (cString cline) with
      | (_, none) => (false, cache)
      | (key, some value) => restoreLoop rest (VarMap.set cache (decode key) (decode value))
termination_by input.length

def dmcacheRestore (file : Option Bytes) (cache : Cache) : Bool × Cache :=
  match file with
  | none => (false, cache)
  | some input => restoreLoop input cache

theorem encode_cons_special {c : UInt8}
    (special : c = byte '%' ∨ c = byte '=' ∨ c = byte '\n' ∨ c = byte '\r') (rest : Bytes) :
    encode (c :: rest) = byte '%' :: h (c >>> 4 &&& 0xf) :: h (c &&& 0xf) :: encode rest :=
  if_pos special

theorem encode_cons_plain {c : UInt8}
    (plain : ¬ (c = byte '%' ∨ c = byte '=' ∨ c = byte '\n' ∨ c = byte '\r')) (rest : Bytes) :
    encode (c :: rest) = c :: encode rest := if_neg plain

/-- A byte of an encoding belongs to an escape, or stands for itself. -/
theorem mem_encode {c : UInt8} {bytes : Bytes} (member : c ∈ encode bytes) :
    (c = byte '%' ∨ c ∈ hexDigits) ∨
      c ∈ bytes ∧ c ≠ byte '=' ∧ c ≠ byte '\n' ∧ c ≠ byte '\r' := by
  induction bytes with
  | nil => cases member
  | cons first rest ih =>
      have later (there : c ∈ encode rest) : (c = byte '%' ∨ c ∈ hexDigits) ∨
          c ∈ first :: rest ∧ c ≠ byte '=' ∧ c ≠ byte '\n' ∧ c ≠ byte '\r' :=
        (ih there).imp_right fun stands => ⟨List.mem_cons_of_mem _ stands.1, stands.2⟩
      by_cases special : first = byte '%' ∨ first = byte '=' ∨ first = byte '\n' ∨ first = byte '\r'
      · have digits : h (first >>> 4 &&& 0xf) ∈ hexDigits ∧ h (first &&& 0xf) ∈ hexDigits := by
          rcases special with rfl | rfl | rfl | rfl <;> decide
        rw [encode_cons_special special] at member
        simp only [List.mem_cons] at member
        rcases member with percent | high | low | there
        · exact .inl (.inl percent)
        · exact .inl (.inr (high ▸ digits.1))
        · exact .inl (.inr (low ▸ digits.2))
        · exact later there
      · rw [encode_cons_plain special, List.mem_cons] at member
        rcases member with rfl | there
        · simp only [not_or] at special
          exact .inr ⟨List.mem_cons_self, special.2.1, special.2.2.1, special.2.2.2⟩
        · exact later there

theorem newline_not_mem_encode (bytes : Bytes) : byte '\n' ∉ encode bytes := by
  intro member
  rcases mem_encode member with escape | stands
  · revert escape
    decide
  · exact stands.2.2.1 rfl

theorem equal_not_mem_encode (bytes : Bytes) : byte '=' ∉ encode bytes := by
  intro member
  rcases mem_encode member with escape | stands
  · revert escape
    decide
  · exact stands.2.1 rfl

theorem return_not_mem_encode (bytes : Bytes) : byte '\r' ∉ encode bytes := by
  intro member
  rcases mem_encode member with escape | stands
  · revert escape
    decide
  · exact stands.2.2.2 rfl

/-- An escape has two digits behind its first byte. -/
def Escaped (behind : Bytes) : Prop :=
  ∃ d e later, behind = d :: e :: later ∧ d ∈ hexDigits ∧ e ∈ hexDigits

/-- Each `%` of an encoding begins an escape. -/
theorem escaped_of_encode {bytes front behind : Bytes}
    (split : encode bytes = front ++ byte '%' :: behind) : Escaped behind := by
  induction bytes generalizing front with
  | nil => simp [encode] at split
  | cons first rest ih =>
      by_cases special : first = byte '%' ∨ first = byte '=' ∨ first = byte '\n' ∨ first = byte '\r'
      · have digits : h (first >>> 4 &&& 0xf) ∈ hexDigits ∧ h (first &&& 0xf) ∈ hexDigits := by
          rcases special with rfl | rfl | rfl | rfl <;> decide
        have no_percent : byte '%' ∉ hexDigits := by decide
        rw [encode_cons_special special] at split
        -- the digits are no `%`, so it is the first byte of the escape, or behind all of it
        match front with
        | [] =>
            rw [List.nil_append] at split
            exact ⟨_, _, _, (List.cons.inj split).2.symm, digits⟩
        | [c] =>
            obtain ⟨high, -⟩ := List.cons.inj (List.cons.inj split).2
            exact absurd (high ▸ digits.1) no_percent
        | [c, d] =>
            obtain ⟨low, -⟩ := List.cons.inj (List.cons.inj (List.cons.inj split).2).2
            exact absurd (low ▸ digits.2) no_percent
        | c :: d :: e :: front =>
            exact ih (List.cons.inj (List.cons.inj (List.cons.inj split).2).2).2
      · rw [encode_cons_plain special] at split
        cases front with
        | nil => exact absurd (List.cons.inj split).1 (fun same => special (.inl same))
        | cons c front => exact ih (List.cons.inj split).2

/-- Zero bytes are kept. -/
theorem cString_encode (bytes : Bytes) : cString (encode bytes) = encode (cString bytes) := by
  induction bytes with
  | nil => rfl
  | cons first rest ih =>
      by_cases special : first = byte '%' ∨ first = byte '=' ∨ first = byte '\n' ∨ first = byte '\r'
      · have bytes : cString (first :: rest) = first :: cString rest ∧
            ∀ later, cString (byte '%' :: h (first >>> 4 &&& 0xf) :: h (first &&& 0xf) :: later) =
              byte '%' :: h (first >>> 4 &&& 0xf) :: h (first &&& 0xf) :: cString later := by
          rcases special with rfl | rfl | rfl | rfl <;> exact ⟨rfl, fun _ => rfl⟩
        rw [encode_cons_special special, bytes.2, ih, bytes.1, encode_cons_special special]
      · rw [encode_cons_plain special]
        by_cases zero : first = 0
        · rw [zero]
          rfl
        · have one (later : Bytes) : cString (first :: later) = first :: cString later :=
            List.takeWhile_cons_of_pos (decide_eq_true zero)
          rw [one, one, ih, encode_cons_plain special]

theorem decodeLoop_cons {c : UInt8} (plain : c ≠ byte '%') (rest : Bytes) :
    decodeLoop (c :: rest) = c :: decodeLoop rest := by
  match rest with
  | [] => rfl
  | [d] => rfl
  | d :: e :: rest =>
      rw [decodeLoop, if_neg plain]

theorem decode_eq (bytes : Bytes) : decode bytes = decodeLoop bytes := by
  unfold decode
  match bytes with
  | [] => rfl
  | [c] => rfl
  | [c, d] => rfl
  | c :: d :: e :: rest => rw [if_neg (by simp)]

theorem decode_encode (bytes : Bytes) : decode (encode bytes) = bytes := by
  rw [decode_eq]
  induction bytes with
  | nil => rfl
  | cons first rest ih =>
      by_cases special : first = byte '%' ∨ first = byte '=' ∨ first = byte '\n' ∨ first = byte '\r'
      · have escape : ∀ later, decodeLoop
            (byte '%' :: h (first >>> 4 &&& 0xf) :: h (first &&& 0xf) :: later) =
              first :: decodeLoop later := by
          rcases special with rfl | rfl | rfl | rfl <;> exact fun _ => rfl
        rw [encode_cons_special special, escape, ih]
      · rw [encode_cons_plain special, decodeLoop_cons (fun same => special (.inl same)), ih]

/-- The first `=` of a line which is saved is the one between its two parts. -/
theorem cut_line (entry : Bytes × Bytes) :
    Lines.cut (byte '=') (line entry) = (encode entry.1, some (encode entry.2)) :=
  Lines.cut_append (equal_not_mem_encode entry.1) (encode entry.2)

/-- Escaping can be undone, and leaves no byte which a line is read by. -/
theorem escaping_sound (s : Bytes) (entry : Bytes × Bytes) :
    decode (encode s) = s ∧
      (byte '=' ∉ encode s ∧ byte '\r' ∉ encode s ∧ byte '\n' ∉ encode s) ∧
      (∃ key value, Lines.cut (byte '=') (line entry) = (key, some value) ∧
        decode key = entry.1 ∧ decode value = entry.2) ∧
      ∀ front behind, encode s = front ++ byte '%' :: behind → Escaped behind :=
  ⟨decode_encode s,
    ⟨equal_not_mem_encode s, return_not_mem_encode s, newline_not_mem_encode s⟩,
    ⟨_, _, cut_line entry, decode_encode entry.1, decode_encode entry.2⟩,
    fun _ _ split => escaped_of_encode split⟩

theorem cString_of_not_mem {bytes : Bytes} (absent : 0 ∉ bytes) : cString bytes = bytes := by
  unfold cString
  rw [List.takeWhile_eq_self_iff]
  intro item member
  exact decide_eq_true fun zero => absent (zero ▸ member)

theorem zero_not_mem_cString (bytes : Bytes) : 0 ∉ cString bytes := by
  intro member
  have kept := List.mem_takeWhile_imp member
  exact of_decide_eq_true kept rfl

theorem cString_append (first later : Bytes) :
    cString (first ++ later) = if 0 ∈ first then cString first else first ++ cString later := by
  unfold cString
  rw [List.takeWhile_append]
  by_cases zero : 0 ∈ first
  · have shorter : (first.takeWhile (· ≠ 0)).length ≠ first.length := by
      intro same
      have whole := (List.takeWhile_prefix fun c : UInt8 => decide (c ≠ 0)).eq_of_length same
      exact zero_not_mem_cString first (show 0 ∈ first.takeWhile (· ≠ 0) by rwa [whole])
    rw [if_pos zero, if_neg shorter]
  · have whole : first.takeWhile (· ≠ 0) = first := cString_of_not_mem zero
    rw [if_neg zero, whole, if_pos rfl]

theorem zero_mem_encode_iff (bytes : Bytes) : 0 ∈ encode bytes ↔ 0 ∈ bytes := by
  constructor
  · intro member
    rcases mem_encode member with escape | stands
    · exact absurd escape (by decide)
    · exact stands.1
  · intro member
    by_contra absent
    have same : encode bytes = encode (cString bytes) := by
      rw [← cString_encode, cString_of_not_mem absent]
    have whole := congrArg decode same
    rw [decode_encode, decode_encode] at whole
    exact zero_not_mem_cString bytes (whole ▸ member)

/-- The line of an entry, read as a C string. -/
theorem cString_line (entry : Bytes × Bytes) :
    cString (line entry) =
      if 0 ∈ entry.1 then encode (cString entry.1)
      else encode entry.1 ++ byte '=' :: encode (cString entry.2) := by
  have equal : cString (byte '=' :: encode entry.2) = byte '=' :: cString (encode entry.2) := rfl
  unfold line
  rw [cString_append, equal, cString_encode, cString_encode]
  simp only [zero_mem_encode_iff]

theorem newline_not_mem_line (entry : Bytes × Bytes) : byte '\n' ∉ line entry := by
  unfold line
  rw [List.mem_append, List.mem_cons]
  rintro (key | equal | value)
  · exact newline_not_mem_encode _ key
  · exact absurd equal (by decide)
  · exact newline_not_mem_encode _ value

theorem getline_line (count : Nat) (entry : Bytes × Bytes) (rest : Bytes) :
    getline count (line entry ++ byte '\n' :: rest) =
      if (line entry).length + 1 > count then .fail else .line (line entry) rest := by
  unfold getline
  rw [Lines.cut_append (newline_not_mem_line entry)]

theorem restoreLoop_of_eof {input : Bytes} (got : getline (lineLength - 1) input = .eof)
    (cache : Cache) : restoreLoop input cache = (true, cache) := by
  rw [restoreLoop]
  split
  · rfl
  · rename_i other
    cases got.symm.trans other
  · rename_i other
    cases got.symm.trans other

theorem restoreLoop_of_fail {input : Bytes} (got : getline (lineLength - 1) input = .fail)
    (cache : Cache) : restoreLoop input cache = (false, cache) := by
  rw [restoreLoop]
  split
  · rename_i other
    cases got.symm.trans other
  · rfl
  · rename_i other
    cases got.symm.trans other

theorem restoreLoop_of_line {input cline rest : Bytes}
    (got : getline (lineLength - 1) input = .line cline rest) (cache : Cache) :
    restoreLoop input cache =
      ((Lines.cut (byte '=') (cString cline)).2.map fun value =>
        restoreLoop rest (VarMap.set cache (decode (Lines.cut (byte '=') (cString cline)).1)
          (decode value))).getD (false, cache) := by
  rw [restoreLoop]
  split
  · rename_i other
    cases got.symm.trans other
  · rename_i other
    cases got.symm.trans other
  · rename_i other
    cases got.symm.trans other
    dsimp only
    cases cut : Lines.cut (byte '=') (cString cline) with
    | mk key value =>
        cases value with
        | none => rfl
        | some value => rfl

/-- The entries whose line the reader understands. -/
def Understood (entry : Bytes × Bytes) : Prop :=
  (line entry).length + 1 < lineLength ∧ 0 ∉ entry.1

/-- What the reader makes of the line of an entry. -/
theorem restoreLoop_saved_cons (entry : Bytes × Bytes) (rest cache : Cache) :
    (Understood entry → restoreLoop (saved (entry :: rest)) cache =
      restoreLoop (saved rest) (VarMap.set cache entry.1 (cString entry.2))) ∧
    (¬ Understood entry → restoreLoop (saved (entry :: rest)) cache = (false, cache)) := by
  have got := getline_line (lineLength - 1) entry (saved rest)
  by_cases short : (line entry).length + 1 < lineLength
  · rw [if_neg (by omega)] at got
    rw [saved, restoreLoop_of_line got, cString_line]
    by_cases zero : 0 ∈ entry.1
    · rw [if_pos zero, Lines.cut_of_not_mem (equal_not_mem_encode _)]
      exact ⟨fun understood => absurd zero understood.2, fun _ => rfl⟩
    · rw [if_neg zero, Lines.cut_append (equal_not_mem_encode _)]
      simp only [Option.map_some, Option.getD_some, decode_encode]
      exact ⟨fun _ => trivial, fun refused => absurd ⟨short, zero⟩ refused⟩
  · rw [if_pos (by omega)] at got
    rw [saved, restoreLoop_of_fail got]
    exact ⟨fun understood => absurd understood.1 short, fun _ => rfl⟩

/-- A file is read to its end when every line is understood. -/
theorem restoreLoop_saved (entries cache : Cache) :
    ((restoreLoop (saved entries) cache).1 = true ↔ ∀ entry ∈ entries, Understood entry) ∧
      ((∀ entry ∈ entries, Understood entry) → (restoreLoop (saved entries) cache).2 =
        entries.foldl (fun cache entry => VarMap.set cache entry.1 (cString entry.2)) cache) := by
  induction entries generalizing cache with
  | nil =>
      have ended : restoreLoop (saved []) cache = (true, cache) := restoreLoop_of_eof rfl cache
      rw [ended]
      exact ⟨iff_of_true rfl (fun _ member => nomatch member), fun _ => rfl⟩
  | cons entry rest ih =>
      obtain ⟨goesOn, stops⟩ := restoreLoop_saved_cons entry rest cache
      obtain ⟨read, result⟩ := ih (VarMap.set cache entry.1 (cString entry.2))
      rw [List.forall_mem_cons]
      by_cases understood : Understood entry
      · rw [goesOn understood, read]
        exact ⟨(and_iff_right understood).symm, fun all => result all.2⟩
      · rw [stops understood]
        exact ⟨iff_of_false Bool.false_ne_true (fun all => understood all.1),
          fun all => absurd all.1 understood⟩

/-- The new process has read the file to its end and has this cache. -/
def Restores (file : Option Bytes) (cache : Cache) : Prop :=
  (dmcacheRestore file []).1 = true ∧ VarMap.Same (dmcacheRestore file []).2 cache

/-- The entries which survive: those without zero bytes, in lines which fit into the buffer
of the reader. -/
def Fits (entry : Bytes × Bytes) : Prop :=
  (line entry).length + 1 < lineLength ∧ 0 ∉ entry.1 ∧ 0 ∉ entry.2

instance (entry : Bytes × Bytes) : Decidable (Fits entry) := inferInstanceAs (Decidable (_ ∧ _))

theorem restores_saved_iff {cache : Cache} (distinct : (cache.map Prod.fst).Nodup) :
    Restores (some (saved cache)) cache ↔ ∀ entry ∈ cache, Fits entry := by
  obtain ⟨read, result⟩ := restoreLoop_saved cache []
  constructor
  · intro ⟨ended, same⟩ entry member
    have understood := read.mp ended entry member
    have there := @VarMap.lookup_of_mem _ _ instBEqOfDecidableEq _ _ distinct _ member
    have kept := same entry.1
    unfold dmcacheRestore at kept
    rw [result (read.mp ended), VarMap.lookup_foldl_set cString distinct, there] at kept
    have whole : cString entry.2 = entry.2 := by simpa using kept
    exact ⟨understood.1, understood.2, whole ▸ zero_not_mem_cString entry.2⟩
  · intro fits
    have understood : ∀ entry ∈ cache, Understood entry := fun entry member =>
      ⟨(fits entry member).1, (fits entry member).2.1⟩
    refine ⟨read.mpr understood, ?_⟩
    show VarMap.Same (restoreLoop (saved cache) []).2 cache
    rw [result understood]
    apply VarMap.foldl_set_same distinct
    exact fun entry member => cString_of_not_mem (fits entry member).2.2

theorem length_le_encode (bytes : Bytes) : bytes.length ≤ (encode bytes).length := by
  induction bytes with
  | nil => exact Nat.le_refl 0
  | cons first rest ih =>
      unfold encode
      split
      · simp only [List.length_cons]
        omega
      · simp only [List.length_cons]
        omega

/-- The encoding never shortens, so long metadata does not fit. -/
theorem not_fits_of_long (key : Bytes) {value : Bytes} (long : lineLength ≤ value.length) :
    ¬ Fits (key, value) := by
  intro fits
  have short : (line (key, value)).length + 1 < lineLength := fits.1
  have longer : value.length ≤ (encode (key, value).2).length := length_le_encode value
  rw [line, List.length_append, List.length_cons] at short
  omega

end OHMetaCache

open OHMetaCache

/-- The save queue, on which only the last task stays, and the file. `last` is the cache of
the last task, and `clean` says that the worker has met no error with the last one it took. -/
structure CacheFile where
  queue : Option Cache := none
  file : Option Bytes := none
  last : Option Cache := none
  clean : Bool := true
deriving DecidableEq

inductive CacheAct
  | save (cache : Cache)
  | work (env : SaveCacheEnv)

namespace CacheFile

/-- A worker without a task waits. -/
def step (s : CacheFile) : CacheAct → Option (CacheFile × Unit)
  | .save cache => some ({ s with queue := some cache, last := some cache }, ())
  | .work env =>
      s.queue.map fun cache =>
        ({ s with
          queue := none
          file := dmcacheSaveWorker env cache s.file
          clean := env.opened && env.written.isNone && env.renamed }, ())

/-- What is known between two tasks: the last cache is still to be written, or it is the
one which the file was written for. -/
structure Kept (s : CacheFile) : Prop where
  waiting : ∀ cache ∈ s.queue, s.last = some cache
  written : s.queue = none → s.clean = true → ∀ cache ∈ s.last, s.file = some (saved cache)

theorem kept_step {s t : CacheFile} {action : CacheAct} {out : Unit} (kept : s.Kept)
    (taken : s.step action = some (t, out)) : t.Kept := by
  cases action with
  | save cache =>
      cases taken
      exact ⟨fun _ there => there, fun empty => by cases empty⟩
  | work env =>
      obtain ⟨cache, there, same⟩ := Option.map_eq_some_iff.mp taken
      cases same
      refine ⟨fun _ there => (by cases there), fun _ clean last known => ?_⟩
      have newest : last = cache := Option.some.inj (known.symm.trans (kept.waiting cache there))
      obtain ⟨works, renamed⟩ := Bool.and_eq_true_iff.mp clean
      obtain ⟨opened, whole⟩ := Bool.and_eq_true_iff.mp works
      unfold dmcacheSaveWorker
      rw [if_pos ⟨opened, renamed⟩, Option.isNone_iff_eq_none.mp whole, newest]

/-- A cache which has been saved without an error comes back in a new process exactly when
all its entries fit. -/
theorem restores_iff (actions : List CacheAct) (s : CacheFile) (outs : List Unit)
    (ran : Machine.run step {} actions = some (s, outs)) (drained : s.queue = none)
    (clean : s.clean = true) (cache : Cache) (last : s.last = some cache)
    (distinct : (cache.map Prod.fst).Nodup) :
    Restores s.file cache ↔ ∀ entry ∈ cache, Fits entry := by
  have start : Kept {} := ⟨fun _ there => (by cases there), fun _ _ _ there => (by cases there)⟩
  have kept : s.Kept := by
    apply Machine.invariant_of_run (G := fun _ _ _ _ => True) _ _ _ _ _ start
      (Machine.along_true step {} actions) ran
    intro s action t out kept _ taken
    exact kept_step kept taken
  rw [kept.written drained clean cache last]
  exact restores_saved_iff distinct

/-- Two saves, the first of which is never written. -/
theorem restores_two :
    let cache : Cache := [([97], [37, 61, 10]), ([], [195, 169])]
    ∃ s outs, Machine.run step {} [.save [], .save cache, .work {}] = some (s, outs) ∧
      Restores s.file cache := by
  intro cache
  refine ⟨_, _, rfl, ?_⟩
  exact (restores_iff [.save [], .save cache, .work {}] _ _ rfl rfl rfl cache rfl (by decide)).mpr
    (by decide)

/-- The metadata of one song is longer than the buffer of the reader. -/
theorem long_not_restored :
    let cache : Cache := [([97], List.replicate 10240 98)]
    ∃ s outs, Machine.run step {} [.save cache, .work {}] = some (s, outs) ∧ s.queue = none ∧
      s.clean = true ∧ s.last = some cache ∧ ¬ Restores s.file cache := by
  intro cache
  refine ⟨_, _, rfl, rfl, rfl, rfl, fun restores => ?_⟩
  have distinct : (cache.map Prod.fst).Nodup := List.nodup_singleton [97]
  have long : lineLength ≤ (List.replicate 10240 (98 : UInt8)).length := by
    rw [List.length_replicate, lineLength]
  have fits := (restores_saved_iff distinct).mp restores _ List.mem_cons_self
  exact not_fits_of_long [97] long fits

end CacheFile

end Upmpdcli
