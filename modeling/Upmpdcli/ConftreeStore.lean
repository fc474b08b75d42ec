import Upmpdcli.ConftreeOrder
import Upmpdcli.Lib.Machine

set_option autoImplicit false

/- A configuration as a store: what runs of its operations do to the variables in memory. -/
namespace Upmpdcli.Conftree

/-- What is kept in a configuration: a value for each name in each section. -/
abbrev Variables := Bytes → Bytes → Option Bytes

def Variables.assign (vars : Variables) (nm value sk : Bytes) : Variables := fun nm' sk' =>
  if nm' = nm ∧ sk' = sk then some value else vars nm' sk'

def Variables.erase (vars : Variables) (nm sk : Bytes) : Variables := fun nm' sk' =>
  if nm' = nm ∧ sk' = sk then none else vars nm' sk'

/-- The variables by their keys. -/
def ConfSimple.variables (conf : ConfSimple) : Variables := fun key subkey =>
  (VarMap.find conf.submaps subkey).bind fun submap => VarMap.find submap key

theorem ConfSimple.find_eq (conf : ConfSimple) (nm sk : Bytes) :
    conf.find nm sk = conf.variables (conf.key nm) (conf.subkey sk) := rfl

/-- `erase`, up to the writing. A section without variables goes away. -/
def ConfSimple.eraseVar (conf : ConfSimple) (nm sk : Bytes) : Option ConfSimple :=
  (VarMap.find conf.submaps (conf.subkey sk)).map fun submap =>
    let left := VarMap.erase submap (conf.key nm)
    { conf with
      submaps :=
        if left = [] then VarMap.erase conf.submaps (conf.subkey sk)
        else VarMap.set conf.submaps (conf.subkey sk) left }

/-- The order of a `CaseComparator`, which compares signed characters when it ignores case. -/
def nameLe (nocase : Bool) : Bytes → Bytes → Bool
  | [], _ => true
  | _ :: _, [] => false
  | b :: left, c :: right =>
      let rank (c : UInt8) : Int := if nocase then c.toInt8.toInt else c.toNat
      rank b < rank c ∨ rank b = rank c ∧ nameLe nocase left right

/-- The names in a section, without a pattern. -/
def ConfSimple.getNames (conf : ConfSimple) (sk : Bytes) : List Bytes :=
  if conf.status = .error then []
  else
    (((VarMap.find conf.submaps (conf.subkey sk)).getD []).map Prod.fst).mergeSort
      (nameLe conf.flags.keyNocase)

/-- Of a text which could not be written completely, the first `kept` bytes are in the file. -/
structure DiskEnv extends WriteEnv where
  kept : Nat := 0
deriving DecidableEq

/-- A configuration, and what is in the file `m_filename`. -/
structure Disk where
  conf : ConfSimple
  file : Bytes
deriving DecidableEq

namespace Disk

variable (d : Disk) (env : DiskEnv)

/-- `write`, and whether it succeeds. The file is emptied when it is opened. -/
def write : Disk × Bool :=
  if d.conf.status = .error then (d, false)
  else if d.conf.holdWrites then (d, true)
  else if d.conf.hasFile then
    if env.opened then
      let text := d.conf.writeLines [] d.conf.order
      if env.good then ({ d with file := text }, true)
      else ({ d with file := text.take env.kept }, false)
    else (d, false)
  else (d, true)

/-- `none` is a call of `abort`. A value which has been set stays set when it cannot be
written. -/
def set (nm value sk : Bytes) : Option (Disk × Bool) :=
  if d.conf.status ≠ .rw then some (d, false)
  else
    match d.conf.iSet nm value sk false with
    | .refused => some (d, false)
    | .aborted => none
    | .done conf => some (({ d with conf } : Disk).write env)

def erase (nm sk : Bytes) : Disk × Bool :=
  if d.conf.status ≠ .rw then (d, false)
  else
    match d.conf.eraseVar nm sk with
    | none => (d, false)
    | some conf => ({ d with conf } : Disk).write env

/-- Nobody asks here whether the configuration may be written. -/
def clear : Disk × Bool :=
  ({ d with conf := { d.conf with submaps := [], order := [] } } : Disk).write env

def holdWrites (on : Bool) : Disk × Bool :=
  let d : Disk := { d with conf := { d.conf with holdWrites := on } }
  if on then (d, true) else d.write env

/-- Each `erase` writes, and there is one more write for all of them. -/
def eraseKey (envs : Nat → DiskEnv) (sk : Bytes) : Disk × Bool :=
  let nms := d.conf.getNames sk
  let d := nms.zipIdx.foldl (fun d nm => (d.erase (envs nm.2) nm.1 sk).1) d
  d.write (envs nms.length)

/-- The configuration of a file. -/
def ofFile (path_tildexpand : Bytes → Bytes) (flags : Flags) (status : StatusCode)
    (content : Bytes) : Disk where
  conf := .ofFile path_tildexpand flags status content
  file := content

inductive Op
  | set (nm value sk : Bytes)
  | erase (nm sk : Bytes)
  | clear
  | holdWrites (on : Bool)
deriving DecidableEq

def step (d : Disk) : Op × DiskEnv → Option (Disk × Bool)
  | (.set nm value sk, env) => d.set env nm value sk
  | (.erase nm sk, env) => some (d.erase env nm sk)
  | (.clear, env) => some (d.clear env)
  | (.holdWrites on, env) => some (d.holdWrites env on)

/-- What an operation does to the variables. -/
def Op.apply (flags : Flags) (writable : Bool) (vars : Variables) : Op → Variables
  | .set nm value sk =>
      if writable ∧ value.any lineEnds.contains = false then
        vars.assign (caseKey flags.keyNocase nm) value (caseKey flags.submapNocase sk)
      else vars
  | .erase nm sk =>
      if writable then vars.erase (caseKey flags.keyNocase nm) (caseKey flags.submapNocase sk)
      else vars
  | .clear => fun _ _ => none
  | .holdWrites _ => vars

end Disk

section

variable {conf after : ConfSimple} {nm sk value : Bytes} {init : Bool}

/-- `orderVar` only adds to the lines. -/
theorem ConfSimple.orderVar_lines (done : conf.orderVar nm sk init = .done after) :
    (∃ order, after = { conf with order }) ∧ conf.order ⊆ after.order := by
  unfold ConfSimple.orderVar at done
  split at done
  · cases done
    exact ⟨⟨_, rfl⟩, List.subset_append_left _ _⟩
  · split at done
    · cases done
    · rename_i before rest start
      have whole : conf.order = before ++ rest := by
        unfold ConfSimple.startOf at start
        split at start
        · cases start
          rfl
        · split at start
          · cases start
          · rename_i line behind dropped
            cases start
            rw [List.append_assoc, List.singleton_append, ← dropped]
            exact List.takeWhile_append_dropWhile.symm
      dsimp only at done
      cases done
      refine ⟨⟨_, rfl⟩, fun line member => ?_⟩
      rw [whole, ← List.takeWhile_append_dropWhile (p := fun line => decide (line.kind ≠ .sk))
        (l := rest)] at member
      simp only [List.mem_append] at member ⊢
      rcases member with early | zoned | late
      · exact .inl (.inl early)
      · refine .inl (.inr ?_)
        split
        · exact zoned
        · exact (mem_addVar nm _ line).mpr (.inl zoned)
      · exact .inr late

/-- What `i_set` does when it takes the value, whatever the flags. -/
structure Stored (conf after : ConfSimple) (nm value sk : Bytes) : Prop where
  one_line : value.any lineEnds.contains = false
  same : ∃ order, after = { conf with
    submaps := VarMap.set conf.submaps (conf.subkey sk)
      (VarMap.set ((VarMap.find conf.submaps (conf.subkey sk)).getD []) (conf.key nm) value)
    order := order }
  lines : conf.order ⊆ after.order
  opened : VarMap.find conf.submaps (conf.subkey sk) = none → sk = [] ∨
    ∃ line ∈ after.order, line.kind = .sk ∧ conf.subkey line.data = conf.subkey sk

theorem ConfSimple.any_isSk (found : conf.order.any (conf.isSk sk) = true) :
    ∃ line ∈ conf.order, line.kind = .sk ∧ conf.subkey line.data = conf.subkey sk := by
  obtain ⟨line, member, fits⟩ := List.any_eq_true.mp found
  exact ⟨line, member, of_decide_eq_true fits⟩

theorem ConfSimple.iSet_stored (done : conf.iSet nm value sk init = .done after) :
    Stored conf after nm value sk := by
  unfold ConfSimple.iSet at done
  split at done
  · cases done
  · rename_i one_line
    rw [Bool.not_eq_true] at one_line
    dsimp only at done
    split at done
    · rename_i absent
      split at done
      · obtain ⟨⟨order, same⟩, lines⟩ := ConfSimple.orderVar_lines done
        refine ⟨one_line, ⟨order, ?_⟩, fun line member => ?_, fun _ => .inr ?_⟩
        · rw [same, absent]
          rfl
        · exact lines (List.mem_append_left _ member)
        · exact ⟨_, lines (List.mem_append_right _ (List.mem_singleton.mpr rfl)), rfl, rfl⟩
      · rename_i there
        obtain ⟨⟨order, same⟩, lines⟩ := ConfSimple.orderVar_lines done
        refine ⟨one_line, ⟨order, ?_⟩, lines, fun _ => ?_⟩
        · rw [same, absent]
          rfl
        · rw [not_and_or, not_not, not_not] at there
          apply there.imp_right
          intro found
          obtain ⟨line, member, fits⟩ := ConfSimple.any_isSk found
          exact ⟨line, lines member, fits⟩
    · rename_i submap found
      have filled (absent : VarMap.find conf.submaps (conf.subkey sk) = none) : sk = [] ∨
          ∃ line ∈ after.order, line.kind = .sk ∧ conf.subkey line.data = conf.subkey sk := by
        cases found.symm.trans absent
      split at done
      · cases done
        exact ⟨one_line, ⟨_, by rw [found]; rfl⟩, List.Subset.refl _, filled⟩
      · obtain ⟨⟨order, same⟩, lines⟩ := ConfSimple.orderVar_lines done
        exact ⟨one_line, ⟨order, by rw [same, found]; rfl⟩, lines, filled⟩

theorem Stored.variables (stored : Stored conf after nm value sk) :
    after.variables = conf.variables.assign (conf.key nm) value (conf.subkey sk) := by
  obtain ⟨order, same⟩ := stored.same
  funext key subkey
  rw [same, Variables.assign, ConfSimple.variables, ConfSimple.variables, VarMap.find_set]
  by_cases here : subkey = conf.subkey sk
  · rw [if_pos here, Option.bind_some, VarMap.find_set, here]
    by_cases named : key = conf.key nm
    · rw [if_pos named, if_pos ⟨named, rfl⟩]
    · rw [if_neg named, if_neg fun both => named both.1]
      cases VarMap.find conf.submaps (conf.subkey sk) <;> rfl
  · rw [if_neg here, if_neg fun both => here both.2]

/-- What `erase` does to the sections. -/
theorem ConfSimple.eraseVar_some (erased : conf.eraseVar nm sk = some after) :
    ∃ submap, VarMap.find conf.submaps (conf.subkey sk) = some submap ∧
      (∃ submaps, after = { conf with submaps }) ∧
      ∀ key, VarMap.find after.submaps key =
        if key = conf.subkey sk then
          if VarMap.erase submap (conf.key nm) = [] then none
          else some (VarMap.erase submap (conf.key nm))
        else VarMap.find conf.submaps key := by
  obtain ⟨submap, found, rfl⟩ := Option.map_eq_some_iff.mp erased
  refine ⟨submap, found, ⟨_, rfl⟩, fun key => ?_⟩
  dsimp only
  split
  · rw [VarMap.find_erase]
  · rw [VarMap.find_set]

theorem ConfSimple.eraseVar_variables (erased : conf.eraseVar nm sk = some after) :
    after.variables = conf.variables.erase (conf.key nm) (conf.subkey sk) := by
  obtain ⟨submap, there, -, found⟩ := ConfSimple.eraseVar_some erased
  funext key subkey
  rw [Variables.erase, ConfSimple.variables, ConfSimple.variables, found]
  by_cases here : subkey = conf.subkey sk
  · have left : (if VarMap.erase submap (conf.key nm) = [] then none
        else some (VarMap.erase submap (conf.key nm))).bind (fun submap => VarMap.find submap key) =
        VarMap.find (VarMap.erase submap (conf.key nm)) key := by
      split
      · rename_i empty
        rw [empty]
        rfl
      · rfl
    rw [if_pos here, left, VarMap.find_erase, here, there, Option.bind_some]
    by_cases named : key = conf.key nm
    · rw [if_pos named, if_pos ⟨named, rfl⟩]
    · rw [if_neg named, if_neg fun both => named both.1]
  · rw [if_neg here, if_neg fun both => here both.2]

/-- Where nothing is erased there was no such section. -/
theorem ConfSimple.eraseVar_none (absent : conf.eraseVar nm sk = none) :
    conf.variables.erase (conf.key nm) (conf.subkey sk) = conf.variables := by
  have no_section := Option.map_eq_none_iff.mp absent
  funext key subkey
  rw [Variables.erase]
  split
  · rename_i here
    rw [ConfSimple.variables, here.2, no_section]
    rfl
  · rfl

end

/-- No section is without variables, and each has a line. The case is taken off the names. -/
structure Indexed (conf : ConfSimple) : Prop where
  filled : ∀ key submap, VarMap.find conf.submaps key = some submap → submap ≠ []
  opened : ∀ key, VarMap.find conf.submaps key ≠ none → key = [] ∨
    ∃ line ∈ conf.order, line.kind = .sk ∧ conf.subkey line.data = key
  keys : ∀ key subkey, conf.variables key subkey ≠ none → conf.key key = key

section

variable {conf after : ConfSimple} {nm sk value : Bytes} {init : Bool}

theorem caseKey_nil (nocase : Bool) : caseKey nocase [] = [] := by
  unfold caseKey
  split <;> rfl

/-- A key is the same one however often its case is taken off. -/
theorem caseKey_caseKey (nocase : Bool) (key : Bytes) :
    caseKey nocase (caseKey nocase key) = caseKey nocase key := by
  have twice (c : UInt8) : tolower (tolower c) = tolower c := by
    unfold tolower
    by_cases upper : byte 'A' ≤ c ∧ c ≤ byte 'Z'
    · have low : 65 ≤ c.toNat := UInt8.le_iff_toNat_le.mp upper.1
      have high : c.toNat ≤ 90 := UInt8.le_iff_toNat_le.mp upper.2
      rw [if_pos upper, if_neg]
      rintro ⟨-, still⟩
      have sum : (c + 32).toNat = (c.toNat + 32) % 256 := UInt8.toNat_add c 32
      have bound : (c + 32).toNat ≤ 90 := UInt8.le_iff_toNat_le.mp still
      omega
    · rw [if_neg upper, if_neg upper]
  unfold caseKey
  cases nocase with
  | false => rfl
  | true => simp only [if_true, List.map_map, Function.comp_def, twice]

theorem Indexed.push (indexed : Indexed conf) (line : ConfLine) : Indexed (conf.push line) where
  filled := indexed.filled
  opened key found :=
    (indexed.opened key found).imp_right fun ⟨other, member, fits⟩ =>
      ⟨other, List.mem_append_left _ member, fits⟩
  keys := indexed.keys

theorem Indexed.stored (indexed : Indexed conf) (stored : Stored conf after nm value sk) :
    Indexed after := by
  obtain ⟨order, same⟩ := stored.same
  have submaps : after.submaps = VarMap.set conf.submaps (conf.subkey sk)
      (VarMap.set ((VarMap.find conf.submaps (conf.subkey sk)).getD []) (conf.key nm) value) := by
    rw [same]
  have subkey (sk' : Bytes) : after.subkey sk' = conf.subkey sk' := by
    rw [same]
    rfl
  constructor
  · intro key submap found
    rw [submaps, VarMap.find_set] at found
    split at found
    · cases found
      exact List.cons_ne_nil _ _
    · exact indexed.filled key submap found
  · intro key found
    have old (there : VarMap.find conf.submaps key ≠ none) : key = [] ∨
        ∃ line ∈ after.order, line.kind = .sk ∧ after.subkey line.data = key := by
      apply (indexed.opened key there).imp_right
      rintro ⟨line, member, kind, data⟩
      exact ⟨line, stored.lines member, kind, (subkey line.data).trans data⟩
    rw [submaps, VarMap.find_set] at found
    split at found
    · rename_i here
      by_cases absent : VarMap.find conf.submaps key = none
      · rcases stored.opened (here ▸ absent) with global | ⟨line, member, kind, data⟩
        · left
          rw [here, global]
          exact caseKey_nil _
        · right
          exact ⟨line, member, kind, (subkey line.data).trans (data.trans here.symm)⟩
      · exact old absent
    · exact old found
  · intro key subkey' found
    rw [stored.variables, Variables.assign] at found
    have kept : conf.key key = key := by
      split at found
      · rename_i here
        rw [here.1]
        exact caseKey_caseKey _ _
      · exact indexed.keys key subkey' found
    rw [same]
    exact kept

theorem Indexed.erased (indexed : Indexed conf) (erased : conf.eraseVar nm sk = some after) :
    Indexed after := by
  obtain ⟨submap, there, ⟨submaps, same⟩, found⟩ := ConfSimple.eraseVar_some erased
  constructor
  · intro key submap' left
    rw [found] at left
    split at left
    · obtain ⟨some_left, same_left⟩ := Option.ite_none_left_eq_some.mp left
      rw [← Option.some.inj same_left]
      exact some_left
    · exact indexed.filled key submap' left
  · intro key left
    have old : VarMap.find conf.submaps key ≠ none := by
      rw [found] at left
      split at left
      · rename_i here
        rw [here, there]
        exact Option.some_ne_none _
      · exact left
    have opened := indexed.opened key old
    rw [same]
    exact opened
  · intro key subkey left
    rw [ConfSimple.eraseVar_variables erased, Variables.erase] at left
    have kept := indexed.keys key subkey fun absent => left (by rw [absent, ite_self])
    rw [same]
    exact kept

/-- The section of a variable which is set has a line by then. -/
theorem Indexed.not_aborted (indexed : Indexed conf) (nm value sk : Bytes) (init : Bool) :
    conf.iSet nm value sk init ≠ .aborted := by
  have placed {conf : ConfSimple} (there : sk = [] ∨ ∃ line ∈ conf.order, conf.isSk sk line) :
      conf.orderVar nm sk init ≠ .aborted := by
    unfold ConfSimple.orderVar
    split
    · simp
    · split
      · rename_i lost
        unfold ConfSimple.startOf at lost
        split at lost
        · cases lost
        · rename_i named
          obtain ⟨line, member, here⟩ := there.resolve_left named
          split at lost
          · rename_i none_left
            have passed := List.dropWhile_eq_nil_iff.mp none_left line member
            simp [here] at passed
          · cases lost
      · simp
  unfold ConfSimple.iSet
  split
  · simp
  · dsimp only
    split
    · split
      · apply placed
        right
        exact ⟨_, List.mem_append_right _ (List.mem_singleton.mpr rfl),
          decide_eq_true ⟨rfl, rfl⟩⟩
      · rename_i there
        apply placed
        rw [not_and_or, not_not, not_not] at there
        exact there.imp_right List.any_eq_true.mp
    · rename_i submap found
      split
      · simp
      · apply placed
        rcases indexed.opened (conf.subkey sk) (by rw [found]; exact Option.some_ne_none _) with
          global | ⟨line, member, kind, data⟩
        · left
          have key : caseKey conf.flags.submapNocase sk = [] := global
          unfold caseKey at key
          split at key
          · exact List.map_eq_nil_iff.mp key
          · exact key
        · right
          exact ⟨line, member, decide_eq_true ⟨kind, data⟩⟩

end

section

variable (path_tildexpand : Bytes → Bytes) (s : ParseState)

/-- What one turn of the parser does to the configuration. -/
theorem ParseState.next_cases (cline : Bytes) (eof : Bool) :
    (s.next path_tildexpand cline eof).1.conf = s.conf ∨
      (∃ line, (s.next path_tildexpand cline eof).1.conf = s.conf.push line) ∨
      ∃ nm value sk, s.conf.iSet nm value sk true =
        .done (s.next path_tildexpand cline eof).1.conf := by
  have set (s : ParseState) (nm value : Bytes) : (s.iSet nm value).conf = s.conf ∨
      (∃ line, (s.iSet nm value).conf = s.conf.push line) ∨
      ∃ nm' value' sk, s.conf.iSet nm' value' sk true = .done (s.iSet nm value).conf := by
    unfold ParseState.iSet
    split
    · rename_i conf done
      exact .inr (.inr ⟨nm, value, _, done⟩)
    · exact .inl rfl
    · exact .inl rfl
  unfold ParseState.next
  dsimp only
  split
  · split
    · exact .inl rfl
    · exact .inr (.inl ⟨_, rfl⟩)
  · split
    · exact .inl rfl
    · unfold ParseState.takeLine
      split
      · exact .inr (.inl ⟨_, rfl⟩)
      · split
        · exact .inr (.inl ⟨_, rfl⟩)
        · dsimp only
          split
          · exact .inr (.inl ⟨_, rfl⟩)
          · exact set _ _ _

/-- What the parser leaves alone, and what it keeps. -/
structure Read (conf after : ConfSimple) : Prop where
  same : ∃ submaps order, after = { conf with submaps, order }
  indexed : Indexed conf → Indexed after

theorem Read.trans {first second third : ConfSimple} (left : Read first second)
    (right : Read second third) : Read first third where
  same := by
    obtain ⟨submaps, order, rfl⟩ := left.same
    exact right.same
  indexed := fun indexed => right.indexed (left.indexed indexed)

theorem read_next (cline : Bytes) (eof : Bool) :
    Read s.conf (s.next path_tildexpand cline eof).1.conf := by
  rcases s.next_cases path_tildexpand cline eof with
    same | ⟨line, same⟩ | ⟨nm, value, sk, done⟩
  · rw [same]
    exact ⟨⟨_, _, rfl⟩, id⟩
  · rw [same]
    exact ⟨⟨_, _, rfl⟩, fun indexed => indexed.push line⟩
  · have stored := ConfSimple.iSet_stored done
    obtain ⟨order, same⟩ := stored.same
    exact ⟨⟨_, order, same⟩, fun indexed => indexed.stored stored⟩

theorem read_parseLoop (input : Bytes) :
    Read s.conf (parseLoop path_tildexpand input s).conf := by
  induction input, s using Conftree.parseLoop.induct path_tildexpand with
  | case1 input s cline rest got after turn =>
      have read := read_next path_tildexpand s cline rest.isNone
      rw [turn] at read
      rw [parseLoop_last got turn]
      exact read
  | case2 input s cline rest got after turn ih =>
      have read := read_next path_tildexpand s cline rest.isNone
      rw [turn] at read
      rw [parseLoop_more got turn]
      exact read.trans ih

theorem read_ofFile (flags : Flags) (status : StatusCode) (content : Bytes) :
    Read { flags, status } (ConfSimple.ofFile path_tildexpand flags status content) :=
  read_parseLoop path_tildexpand { conf := { flags, status } } content

theorem indexed_empty (conf : ConfSimple) (empty : conf.submaps = []) : Indexed conf where
  filled key submap found := by
    rw [empty] at found
    cases found
  opened key found := by
    rw [empty] at found
    exact absurd rfl found
  keys key subkey found := by
    rw [ConfSimple.variables, empty] at found
    exact absurd rfl found

end

namespace Disk

variable {d : Disk} {conf after : ConfSimple} {env : DiskEnv} {op : Op}

/-- The operation on the configuration in memory, when it is not refused. -/
def Op.Changes (conf after : ConfSimple) : Op → Prop
  | .set nm value sk => conf.status = .rw ∧ conf.iSet nm value sk false = .done after
  | .erase nm sk => conf.status = .rw ∧ conf.eraseVar nm sk = some after
  | .clear => after = { conf with submaps := [], order := [] }
  | .holdWrites on => after = { conf with holdWrites := on }

theorem write_conf (d : Disk) (env : DiskEnv) : (d.write env).1.conf = d.conf := by
  unfold write
  split
  · rfl
  · split
    · rfl
    · split
      · split
        · dsimp only
          split <;> rfl
        · rfl
      · rfl

/-- An operation changes the configuration and writes it, or is refused. -/
theorem step_cases (indexed : Indexed d.conf) (op : Op) (env : DiskEnv) :
    (d.step (op, env) = some (d, false) ∧
        op.apply d.conf.flags (d.conf.status = .rw) d.conf.variables = d.conf.variables) ∨
      ∃ after, op.Changes d.conf after ∧
        (d.step (op, env) = some (({ d with conf := after } : Disk).write env) ∨
          op = .holdWrites true ∧ d.step (op, env) = some ({ d with conf := after }, true)) := by
  cases op with
  | set nm value sk =>
      show (d.set env nm value sk = _ ∧ _) ∨ ∃ after, _ ∧ (d.set env nm value sk = _ ∨ _)
      unfold Disk.set
      by_cases writable : d.conf.status = .rw
      · rw [if_neg (not_not.mpr writable)]
        cases done : d.conf.iSet nm value sk false with
        | refused =>
            refine .inl ⟨rfl, ?_⟩
            rw [Op.apply, if_neg]
            rintro ⟨-, one_line⟩
            unfold ConfSimple.iSet at done
            rw [if_neg (by simp [one_line])] at done
            have stays {conf : ConfSimple} : conf.orderVar nm sk false ≠ .refused := by
              unfold ConfSimple.orderVar
              split
              · simp
              · split <;> simp
            dsimp only at done
            split at done
            · split at done
              · exact stays done
              · exact stays done
            · split at done
              · cases done
              · exact stays done
        | aborted => exact absurd done (indexed.not_aborted nm value sk false)
        | done after => exact .inr ⟨after, ⟨writable, done⟩, .inl rfl⟩
      · rw [if_pos writable]
        refine .inl ⟨rfl, ?_⟩
        rw [Op.apply, if_neg]
        exact fun both => writable (of_decide_eq_true both.1)
  | erase nm sk =>
      show (some (d.erase env nm sk) = _ ∧ _) ∨ ∃ after, _ ∧ (some (d.erase env nm sk) = _ ∨ _)
      unfold Disk.erase
      by_cases writable : d.conf.status = .rw
      · rw [if_neg (not_not.mpr writable)]
        cases erased : d.conf.eraseVar nm sk with
        | none =>
            refine .inl ⟨rfl, ?_⟩
            rw [Op.apply, if_pos (decide_eq_true writable)]
            exact ConfSimple.eraseVar_none erased
        | some after => exact .inr ⟨after, ⟨writable, erased⟩, .inl rfl⟩
      · rw [if_pos writable]
        refine .inl ⟨rfl, ?_⟩
        rw [Op.apply, if_neg]
        exact fun same => writable (of_decide_eq_true same)
  | clear => exact .inr ⟨_, rfl, .inl rfl⟩
  | holdWrites on =>
      refine .inr ⟨_, rfl, ?_⟩
      cases on with
      | true => exact .inr ⟨rfl, rfl⟩
      | false => exact .inl rfl

/-- What an operation leaves as it was. -/
theorem Op.Changes.same (changed : op.Changes conf after) :
    ∃ submaps order holdWrites, after = { conf with submaps, order, holdWrites } := by
  cases op with
  | set nm value sk =>
      obtain ⟨order, same⟩ := (ConfSimple.iSet_stored changed.2).same
      exact ⟨_, order, conf.holdWrites, same⟩
  | erase nm sk =>
      obtain ⟨-, -, ⟨submaps, same⟩, -⟩ := ConfSimple.eraseVar_some changed.2
      exact ⟨submaps, conf.order, conf.holdWrites, same⟩
  | clear => exact ⟨_, _, conf.holdWrites, changed⟩
  | holdWrites on => exact ⟨conf.submaps, conf.order, on, changed⟩

theorem Op.Changes.indexed (changed : op.Changes conf after) (indexed : Indexed conf) :
    Indexed after := by
  cases op with
  | set nm value sk => exact indexed.stored (ConfSimple.iSet_stored changed.2)
  | erase nm sk => exact indexed.erased changed.2
  | clear =>
      rw [show after = _ from changed]
      exact indexed_empty _ rfl
  | holdWrites on =>
      rw [show after = _ from changed]
      exact ⟨indexed.filled, indexed.opened, indexed.keys⟩

theorem Op.Changes.variables (changed : op.Changes conf after) :
    after.variables = op.apply conf.flags (conf.status = .rw) conf.variables := by
  cases op with
  | set nm value sk =>
      have stored := ConfSimple.iSet_stored changed.2
      rw [Op.apply, if_pos ⟨decide_eq_true changed.1, stored.one_line⟩]
      exact stored.variables
  | erase nm sk =>
      rw [Op.apply, if_pos (decide_eq_true changed.1)]
      exact ConfSimple.eraseVar_variables changed.2
  | clear =>
      rw [show after = _ from changed]
      rfl
  | holdWrites on =>
      rw [show after = _ from changed]
      rfl

/-- What the operations rely on, and what they leave alone. -/
structure Usable (flags : Flags) (status : StatusCode) (d : Disk) : Prop where
  indexed : Indexed d.conf
  flags : d.conf.flags = flags
  status : d.conf.status = status
  hasFile : d.conf.hasFile = true

theorem usable_ofFile (path_tildexpand : Bytes → Bytes) (flags : Flags) (status : StatusCode)
    (content : Bytes) : Usable flags status (.ofFile path_tildexpand flags status content) := by
  have read := read_ofFile path_tildexpand flags status content
  obtain ⟨submaps, order, same⟩ := read.same
  refine ⟨read.indexed (indexed_empty _ rfl), ?_, ?_, ?_⟩
  · rw [ofFile, same]
  · rw [ofFile, same]
  · rw [ofFile, same]

variable {flags : Flags} {status : StatusCode}

/-- One operation: it never aborts, and the variables are changed as they should be. -/
theorem Usable.step (usable : Usable flags status d) (op : Op) (env : DiskEnv) :
    ∃ next ret, d.step (op, env) = some (next, ret) ∧ Usable flags status next ∧
      next.conf.variables = op.apply flags (status = .rw) d.conf.variables := by
  have kept {after : ConfSimple} (changed : op.Changes d.conf after) {next : Disk}
      (made : next.conf = after) : Usable flags status next ∧
        next.conf.variables = op.apply flags (status = .rw) d.conf.variables := by
    obtain ⟨submaps, order, hold, same⟩ := changed.same
    rw [made]
    refine ⟨⟨?_, ?_, ?_, ?_⟩, ?_⟩
    · exact made ▸ changed.indexed usable.indexed
    · rw [made, same]
      exact usable.flags
    · rw [made, same]
      exact usable.status
    · rw [made, same]
      exact usable.hasFile
    · rw [changed.variables, usable.flags, usable.status]
  rcases step_cases usable.indexed op env with ⟨refused, stays⟩ | ⟨after, changed, written | held⟩
  · refine ⟨d, false, refused, usable, ?_⟩
    rw [usable.flags, usable.status] at stays
    exact stays.symm
  · exact ⟨_, _, written, kept changed (write_conf _ env)⟩
  · exact ⟨_, true, held.2, kept changed rfl⟩

/-- Whatever is done with a configuration, in whatever order and with whatever failures of
the disk, it never aborts, and it holds what its operations make of the file. -/
theorem get_run (path_tildexpand : Bytes → Bytes) (flags : Flags) (status : StatusCode)
    (content : Bytes) (ops : List (Op × DiskEnv)) :
    ∃ last rets, Machine.run step (.ofFile path_tildexpand flags status content) ops =
        some (last, rets) ∧
      ∀ nm sk, last.conf.get nm sk =
        if status = .error then none
        else ops.foldl (fun vars op => op.1.apply flags (status = .rw) vars)
          (ConfSimple.ofFile path_tildexpand flags status content).variables
          (caseKey flags.keyNocase nm) (caseKey flags.submapNocase sk) := by
  have runs (d : Disk) (usable : Usable flags status d) :
      ∃ last rets, Machine.run Disk.step d ops = some (last, rets) ∧ Usable flags status last ∧
        last.conf.variables =
          ops.foldl (fun vars op => op.1.apply flags (status = .rw) vars) d.conf.variables := by
    induction ops generalizing d with
    | nil => exact ⟨d, [], rfl, usable, rfl⟩
    | cons op ops ih =>
        obtain ⟨next, ret, taken, fine, changed⟩ := usable.step op.1 op.2
        obtain ⟨last, rets, ran, kept, made⟩ := ih next fine
        refine ⟨last, ret :: rets, (Machine.run_cons_iff _ _ _ _ _).mpr
          ⟨next, ret, rets, taken, ran, rfl⟩, kept, ?_⟩
        rw [made, changed, List.foldl_cons]
  obtain ⟨last, rets, ran, usable, made⟩ :=
    runs _ (usable_ofFile path_tildexpand flags status content)
  refine ⟨last, rets, ran, fun nm sk => ?_⟩
  rw [ConfSimple.get, usable.status, ConfSimple.find_eq, made, ConfSimple.key, ConfSimple.subkey,
    usable.flags]
  rfl

theorem erase_variables {nm sk : Bytes} (usable : Usable flags .rw d) (env : DiskEnv) :
    Usable flags .rw (d.erase env nm sk).1 ∧ (d.erase env nm sk).1.conf.variables =
      d.conf.variables.erase (caseKey flags.keyNocase nm) (caseKey flags.submapNocase sk) := by
  obtain ⟨next, ret, taken, kept, changed⟩ := usable.step (.erase nm sk) env
  have same : (d.erase env nm sk).1 = next := congrArg Prod.fst (Option.some.inj taken)
  rw [same]
  exact ⟨kept, changed⟩

/-- `eraseKey` erases just the section, although it goes away with its last variable. -/
theorem eraseKey_variables (usable : Usable flags .rw d) (envs : Nat → DiskEnv) (sk : Bytes) :
    (d.eraseKey envs sk).1.conf.variables = fun nm' sk' =>
      if sk' = caseKey flags.submapNocase sk then none else d.conf.variables nm' sk' := by
  have erased (nms : List (Bytes × Nat)) (d : Disk) (usable : Usable flags .rw d) :
      (nms.foldl (fun d nm => (d.erase (envs nm.2) nm.1 sk).1) d).conf.variables =
        fun nm' sk' =>
          if sk' = caseKey flags.submapNocase sk ∧
              nm' ∈ nms.map fun nm => caseKey flags.keyNocase nm.1 then none
          else d.conf.variables nm' sk' := by
    induction nms generalizing d with
    | nil => simp
    | cons nm nms ih =>
        obtain ⟨kept, changed⟩ := erase_variables usable (envs nm.2)
        rw [List.foldl_cons, ih _ kept, changed]
        funext nm' sk'
        simp only [Variables.erase, List.map_cons, List.mem_cons]
        grind
  rw [eraseKey, write_conf, erased _ d usable]
  funext nm' sk'
  by_cases here : sk' = caseKey flags.submapNocase sk
  · rw [if_pos here]
    split
    · rfl
    · rename_i kept
      by_contra there
      have folded : caseKey flags.keyNocase nm' = nm' := by
        rw [← usable.flags]
        exact usable.indexed.keys nm' sk' there
      have named : nm' ∈ (d.conf.getNames sk).zipIdx.map Prod.fst := by
        rw [List.zipIdx_map_fst, ConfSimple.getNames, if_neg (by rw [usable.status]; decide),
          List.mem_mergeSort, ConfSimple.subkey, usable.flags, ← here]
        by_contra absent
        apply there
        rw [ConfSimple.variables]
        cases found : VarMap.find d.conf.submaps sk' with
        | none => rfl
        | some submap =>
            rw [found] at absent
            exact VarMap.lookup_eq_none_of_not_mem absent
      obtain ⟨nm, inside, rfl⟩ := List.mem_map.mp named
      exact kept ⟨here, List.mem_map.mpr ⟨nm, inside, folded⟩⟩
  · rw [if_neg here, if_neg fun both => here both.1]

end Disk

end Upmpdcli.Conftree
