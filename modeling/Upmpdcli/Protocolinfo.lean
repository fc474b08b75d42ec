import Upmpdcli.Conftree
import Upmpdcli.Lib.Machine
import Upmpdcli.Lib.Text

set_option autoImplicit false

/- The protocol information of the renderer, which is read again when its file changes. -/
namespace Upmpdcli

/-- What becomes of reading a file: it can't be opened, there is an error behind some bytes, or
the whole content is read. -/
inductive Reading
  | unopened
  | broken (got : Bytes)
  | content (bytes : Bytes)
deriving DecidableEq

/-- The file at some time: `stat` fails, or it gives the date and the size. -/
inductive ProtoFile
  | missing
  | there (mtime sz : Int) (reading : Reading)
deriving DecidableEq

/-- `Protocolinfo::Internal`. The set has no element twice. -/
structure Protocolinfo where
  prototext : Bytes := []
  supportedformats : List Bytes := []
  ok : Bool := false
  mtime : Int := 0
  sz : Int := 0
deriving DecidableEq

namespace Protocolinfo

/-- `regsub1` for an expression which is a text: the first occurrence in the C string. -/
def regsub1 (text input repl : Bytes) : Bytes :=
  match Text.find text (cString input) with
  | none => input
  | some start => input.take start ++ repl ++ input.drop (start + text.length)

/-- One turn of the loop of `read_protocolinfo`. -/
def addLine (enableL16 : Bool) (out line : Bytes) : Bytes :=
  let line := Conftree.trimstring line (bytes " \t\n\r,")
  if line = [] then out
  else
    let line :=
      if enableL16 ∧ line.head? = some (byte '@') then regsub1 (bytes "@ENABLEL16@") line []
      else regsub1 (bytes "@ENABLEL16@") line (bytes "#")
    if line.head? = some (byte '#') then out else out ++ line ++ [byte ',']

/-- Whether the file could be read, and the text. The line with which an error comes is lost. -/
def read_protocolinfo (enableL16 : Bool) : Reading → Bool × Bytes
  | .unopened => (false, [])
  | .broken got => (false, ((got.splitOn (byte '\n')).dropLast).foldl (addLine enableL16) [])
  | .content bytes =>
      (true, Conftree.trimstring ((bytes.splitOn (byte '\n')).foldl (addLine enableL16) [])
        [byte ','])

section Update

-- the content formats of the entries of `parseProtocolInfo`, and the option
variable (contentFormats : Bytes → List Bytes) (enableL16 : Bool)

def maybeUpdate (m : Protocolinfo) : ProtoFile → Protocolinfo
  | .missing => { m with ok := false }
  | .there mtime sz reading =>
      if m.mtime = mtime ∧ m.sz = sz then m
      else
        match read_protocolinfo enableL16 reading with
        | (false, out) => { m with prototext := out, ok := false }
        | (true, out) =>
            { prototext := out
              supportedformats := (contentFormats out).foldl
                (fun formats format => formats.insert format) m.supportedformats
              ok := true, mtime, sz }

/-- `Protocolinfo::the`: the object, or a null pointer when it isn't good and has been deleted. -/
def the (theProto : Option Protocolinfo) (file : ProtoFile) : Option Protocolinfo :=
  let object := theProto.getD (maybeUpdate contentFormats enableL16 {} file)
  if object.ok then some object else none

/-- What the callers use of the object. -/
inductive Access
  | gettext
  | getsupportedformats
deriving DecidableEq

/-- What a caller gets. -/
inductive Value
  | text (text : Bytes)
  | formats (formats : List Bytes)
  /-- The pointer was null. -/
  | undefined
deriving DecidableEq

/-- One use of the object by a caller, with the file as it is then. -/
def step (theProto : Option Protocolinfo) (use : Access × ProtoFile) :
    Option (Option Protocolinfo × Value) :=
  match the contentFormats enableL16 theProto use.2 with
  | none => some (none, .undefined)
  | some object =>
      let object := object.maybeUpdate contentFormats enableL16 use.2
      some (some object,
        match use.1 with
        | .gettext => .text object.prototext
        | .getsupportedformats => .formats object.supportedformats)

end Update

section Paired

variable (contentFormats : Bytes → List Bytes) (enableL16 : Bool)

/-- The object is there, and its formats are those of its text. -/
def Paired : Option Protocolinfo → Prop
  | none => False
  | some m => ∀ format, format ∈ m.supportedformats ↔ format ∈ contentFormats m.prototext

/-- The file is the one which was read last by its date and its size, or it can be read and no
format of the texts before is missing in it. -/
def Checked (theProto : Option Protocolinfo) (use : Access × ProtoFile) : Prop :=
  match theProto, use.2 with
  | some m, .there mtime sz reading =>
      (m.mtime = mtime ∧ m.sz = sz) ∨
        (read_protocolinfo enableL16 reading).1 = true ∧ ∀ format ∈ m.supportedformats,
          format ∈ contentFormats (read_protocolinfo enableL16 reading).2
  | _, _ => False

theorem mem_foldl_insert {formats more : List Bytes} {format : Bytes} :
    format ∈ more.foldl (fun formats format => formats.insert format) formats ↔
      format ∈ formats ∨ format ∈ more := by
  induction more generalizing formats with
  | nil => simp
  | cons first more ih =>
      rw [List.foldl_cons, ih, List.mem_insert_iff, List.mem_cons]
      tauto

/-- What an update does to an object which is good and paired. -/
theorem paired_maybeUpdate {m : Protocolinfo} (good : m.ok = true)
    (paired : Paired contentFormats (some m)) (kind : Access) (file : ProtoFile) :
    (Checked contentFormats enableL16 (some m) (kind, file) →
      (m.maybeUpdate contentFormats enableL16 file).ok = true ∧
        Paired contentFormats (some (m.maybeUpdate contentFormats enableL16 file))) ∧
    (¬ Checked contentFormats enableL16 (some m) (kind, file) →
      (m.maybeUpdate contentFormats enableL16 file).ok = false ∨
        ¬ Paired contentFormats (some (m.maybeUpdate contentFormats enableL16 file))) := by
  unfold Checked
  cases file with
  | missing => exact ⟨fun checked => checked.elim, fun _ => .inl rfl⟩
  | there mtime sz reading =>
      dsimp only
      by_cases same : m.mtime = mtime ∧ m.sz = sz
      · rw [maybeUpdate, if_pos same]
        exact ⟨fun _ => ⟨good, paired⟩, fun unchecked => absurd (.inl same) unchecked⟩
      · rw [maybeUpdate, if_neg same]
        cases read : read_protocolinfo enableL16 reading with
        | mk whole out =>
            cases whole with
            | false =>
                refine ⟨fun checked => ?_, fun _ => .inl rfl⟩
                rcases checked with here | there
                · exact absurd here same
                · exact absurd there.1 Bool.false_ne_true
            | true =>
                dsimp only
                have formats : Paired contentFormats (some {
                    prototext := out
                    supportedformats := (contentFormats out).foldl
                      (fun formats format => formats.insert format) m.supportedformats
                    ok := true, mtime, sz }) ↔
                    ∀ format ∈ m.supportedformats, format ∈ contentFormats out := by
                  unfold Paired
                  simp only [mem_foldl_insert]
                  exact ⟨fun same format member => (same format).mp (.inl member),
                    fun all format => ⟨fun either => either.elim (all format) id, .inr⟩⟩
                rw [formats]
                constructor
                · rintro (here | there)
                  · exact absurd here same
                  · exact ⟨rfl, there.2⟩
                · exact fun unchecked => .inr fun all => unchecked (.inr ⟨rfl, all⟩)

theorem step_of_ok {m : Protocolinfo} (good : m.ok = true) (use : Access × ProtoFile) :
    ∃ value, step contentFormats enableL16 (some m) use =
      some (some (m.maybeUpdate contentFormats enableL16 use.2), value) := by
  have object : the contentFormats enableL16 (some m) use.2 = some m := if_pos good
  unfold step
  rw [object]
  exact ⟨_, rfl⟩

/-- The object of an update which failed is deleted. -/
theorem step_of_not_ok {m : Protocolinfo} (failed : m.ok = false) (use : Access × ProtoFile) :
    step contentFormats enableL16 (some m) use = some (none, .undefined) := by
  have object : the contentFormats enableL16 (some m) use.2 = none := by
    unfold the
    dsimp only
    rw [Option.getD_some, failed, if_neg Bool.false_ne_true]
  unfold step
  rw [object]

theorem paired_of_start {file : ProtoFile} {m : Protocolinfo}
    (started : the contentFormats enableL16 none file = some m) :
    m.ok = true ∧ Paired contentFormats (some m) := by
  unfold the at started
  dsimp only at started
  rw [Option.getD_none] at started
  split at started
  · rename_i good
    cases started
    refine ⟨good, ?_⟩
    cases file with
    | missing => cases good
    | there mtime sz reading =>
        rw [maybeUpdate] at good ⊢
        split
        · rename_i same
          rw [if_pos same] at good
          cases good
        · rename_i differ
          rw [if_neg differ] at good
          cases read : read_protocolinfo enableL16 reading with
          | mk whole out =>
              rw [read] at good
              cases whole with
              | false => cases good
              | true =>
                  intro format
                  exact mem_foldl_insert.trans (or_iff_right List.not_mem_nil)
  · cases started

/-- From an object which is good and paired. -/
theorem along_paired (uses : List (Access × ProtoFile)) {m : Protocolinfo} (good : m.ok = true)
    (paired : Paired contentFormats (some m)) :
    let step := step contentFormats enableL16
    let Checked := Checked contentFormats enableL16
    (Machine.Along (fun s use _ _ => Checked s use) step (some m) uses →
      Machine.Along (fun _ _ t _ => Paired contentFormats t) step (some m) uses) ∧
    ∀ next, Machine.Along (fun _ _ t _ => Paired contentFormats t) step (some m) (uses ++ [next]) →
      Machine.Along (fun s use _ _ => Checked s use) step (some m) uses := by
  induction uses generalizing m with
  | nil => exact ⟨fun _ => trivial, fun _ _ => trivial⟩
  | cons use rest ih =>
      intro step' Checked'
      obtain ⟨value, taken⟩ := step_of_ok contentFormats enableL16 good use
      obtain ⟨keeps, breaks⟩ := paired_maybeUpdate contentFormats enableL16 good paired use.1 use.2
      by_cases checked : Checked contentFormats enableL16 (some m) use
      · obtain ⟨good', paired'⟩ := keeps checked
        obtain ⟨safe, exact_rest⟩ := ih good' paired'
        rw [Machine.along_cons_of_step taken, Machine.along_cons_of_step taken]
        refine ⟨fun along => ⟨paired', safe along.2⟩, fun next along => ⟨checked, ?_⟩⟩
        rw [List.cons_append, Machine.along_cons_of_step taken] at along
        exact exact_rest next along.2
      · rw [Machine.along_cons_of_step taken]
        refine ⟨fun along => absurd along.1 checked, fun next along => ?_⟩
        rw [List.cons_append, Machine.along_cons_of_step taken] at along
        -- the use behind the failed update gets a null pointer
        have failed := (breaks checked).resolve_right (not_not.mpr along.1)
        cases rest with
        | nil =>
            rw [List.nil_append,
              Machine.along_cons_of_step (step_of_not_ok _ _ failed next)] at along
            exact along.2.1.elim
        | cons after rest =>
            rw [List.cons_append,
              Machine.along_cons_of_step (step_of_not_ok _ _ failed after)] at along
            exact along.2.1.elim

/-- As long as every use meets the condition the formats are those of the text, and when one does
not, that use or the next one is not well defined. -/
theorem stays_paired {file : ProtoFile} {m : Protocolinfo}
    (started : the contentFormats enableL16 none file = some m) (uses : List (Access × ProtoFile)) :
    let step := step contentFormats enableL16
    let Checked := Checked contentFormats enableL16
    (Machine.Along (fun s use _ _ => Checked s use) step (some m) uses →
      Machine.Along (fun _ _ t _ => Paired contentFormats t) step (some m) uses) ∧
    ∀ next, Machine.Along (fun _ _ t _ => Paired contentFormats t) step (some m) (uses ++ [next]) →
      Machine.Along (fun s use _ _ => Checked s use) step (some m) uses := by
  obtain ⟨good, paired⟩ := paired_of_start contentFormats enableL16 started
  exact along_paired contentFormats enableL16 uses good paired

/-- The third of the fields between colons, for each entry between commas. -/
def fields (text : Bytes) : List Bytes :=
  (text.splitOn (byte ',')).filterMap fun entry => (entry.splitOn (byte ':'))[2]?

def flac : ProtoFile := .there 1 25 (.content (bytes "http-get:*:audio/flac:*,\n"))

def flacObject : Protocolinfo where
  prototext := bytes "http-get:*:audio/flac:*"
  supportedformats := [bytes "audio/flac"]
  ok := true
  mtime := 1
  sz := 25

theorem the_flac : the fields true none flac = some flacObject := by decide

/-- A format is added to the file. -/
theorem flac_stays_paired :
    let more : ProtoFile := .there 2 55
      (.content (bytes "http-get:*:audio/flac:*,\n @ENABLEL16@http-get:*:audio/L16:*\n"))
    Machine.Along (fun _ _ t _ => Paired fields t) (step fields true) (some flacObject)
      [(.gettext, flac), (.getsupportedformats, more), (.gettext, more)] := by
  intro more
  apply (stays_paired fields true the_flac _).1
  refine ⟨.inl ⟨rfl, rfl⟩, .inr ⟨rfl, by decide⟩, .inl ⟨rfl, rfl⟩, trivial⟩

/-- The file is removed and put back. -/
theorem removed_not_paired :
    ¬ ∀ contentFormats enableL16 file m, the contentFormats enableL16 none file = some m →
      ∀ uses, Machine.Along (fun _ _ t _ => Paired contentFormats t)
        (step contentFormats enableL16) (some m) uses := by
  intro paired
  exact (paired fields true flac flacObject the_flac
    [(.gettext, .missing), (.gettext, flac)]).2.1

end Paired

end Protocolinfo

end Upmpdcli
