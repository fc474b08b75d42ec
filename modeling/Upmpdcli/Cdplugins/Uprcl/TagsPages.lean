import Upmpdcli.Cdplugins.Uprcl.Tags
import Upmpdcli.Lib.Machine
import Upmpdcli.Lib.Page

set_option autoImplicit false

/- The pages of the list of tracks. -/
namespace Upmpdcli.Uprcl

/-- A browse of the list of tracks, in a folder if there is one. -/
structure ItemsRequest where
  folder : Str := []
  pid : Str
  offset : Nat
  count : Nat

namespace Tagged

variable (t : Tagged)

def step (cache : StmtCache) (request : ItemsRequest) : Option (StmtCache × Option Reply) :=
  some (t.browseItems cache request.folder request.pid request.offset request.count)

/-- The tracks of a request, in the order of the table. -/
def rows (request : ItemsRequest) : List Nat := (t.itemsStmt request.folder).rows

/-- The reply is the whole list, or the page which is asked for with its offset and the length of
the whole list. -/
def Paged (request : ItemsRequest) (reply : Option Reply) : Prop :=
  ∃ all r, (t.rows request).mapM (t.trackEntry request.pid) = some all ∧ reply = some r ∧
    (r.total = -1 ∧ r.offset = 0 ∧ r.entries.Perm all ∨
      r.total = all.length ∧ r.offset = request.offset ∧
        r.entries = Paging.page all request.offset request.count)

/-- The number of tracks which the request is answered with. -/
def knownTotal (cache : StmtCache) (request : ItemsRequest) : Nat :=
  (cache.cache.lookup (t.itemsStmt request.folder).text).getD (t.rows request).length

/-- Everything is asked for, or the list is short, or the number of tracks is right and there is a
count with the offset. -/
def Pageable (cache : StmtCache) (request : ItemsRequest) : Prop :=
  (request.offset = 0 ∧ request.count = 0) ∨ t.knownTotal cache request < 1000 ∨
    t.knownTotal cache request = (t.rows request).length ∧ request.count ≠ 0 ∧
      request.count < 2 ^ 63 ∧ request.offset < 2 ^ 63

theorem exists_entries (request : ItemsRequest) :
    ∃ all, (t.rows request).mapM (t.trackEntry request.pid) = some all := by
  apply MapM.exists_eq_some
  intro docidx member
  have row : ∃ row ∈ t.tracks, row.docidx = docidx := by
    unfold rows itemsStmt at member
    split at member
    · exact List.mem_map.mp member
    · obtain ⟨row, selected, same⟩ := List.mem_map.mp member
      exact ⟨row, List.mem_of_mem_filter selected, same⟩
  obtain ⟨row, there, rfl⟩ := row
  exact t.exists_trackEntry there request.pid

theorem stmt_total_fst (cache : StmtCache) (stmt : Stmt) :
    (stmt_total cache stmt).1 = (cache.cache.lookup stmt.text).getD stmt.rows.length := by
  unfold stmt_total
  cases cache.cache.lookup stmt.text with
  | some total => rfl
  | none =>
      dsimp only
      split <;> rfl

/-- Everything is selected, as it is asked for or as the list is short. -/
def Whole (cache : StmtCache) (request : ItemsRequest) : Prop :=
  (request.offset = 0 ∧ request.count = 0) ∨ t.knownTotal cache request < 1000

theorem browseItems_whole {cache : StmtCache} {request : ItemsRequest} {all : List Entry}
    (entries : (t.rows request).mapM (t.trackEntry request.pid) = some all)
    (whole : t.Whole cache request) :
    (t.browseItems cache request.folder request.pid request.offset request.count).2 =
      some ⟨all.mergeSort fun e1 e2 => cmpitems e1 e2 ≤ 0, 0, -1⟩ := by
  have selected : execute (t.itemsStmt request.folder) 0 0 = some (t.rows request) := rfl
  unfold browseItems trackentriesforstmt
  by_cases asked : request.offset ≠ 0 ∨ request.count ≠ 0
  · have short : (stmt_total cache (t.itemsStmt request.folder)).1 < 1000 := by
      rw [stmt_total_fst]
      exact whole.resolve_left (by omega)
    simp only [if_pos asked, if_pos short, selected, bind, Option.bind_some, entries]
    rfl
  · simp only [if_neg asked, show 0 < 1000 by decide, if_true, selected, bind, Option.bind_some,
      entries]
    rfl

theorem browseItems_part {cache : StmtCache} {request : ItemsRequest}
    (part : ¬ t.Whole cache request) :
    (t.browseItems cache request.folder request.pid request.offset request.count).2 =
      ((execute (t.itemsStmt request.folder) request.offset request.count).bind fun rows =>
        (rows.mapM (t.trackEntry request.pid)).map fun entries =>
          ⟨entries, request.offset, t.knownTotal cache request⟩) := by
  unfold Whole at part
  rw [not_or] at part
  obtain ⟨some_limit, long⟩ := part
  have asked : request.offset ≠ 0 ∨ request.count ≠ 0 := by omega
  unfold browseItems trackentriesforstmt
  have total : (stmt_total cache (t.itemsStmt request.folder)).1 = t.knownTotal cache request :=
    stmt_total_fst cache (t.itemsStmt request.folder)
  simp only [if_pos asked, total, if_neg long, bind]
  cases execute (t.itemsStmt request.folder) request.offset request.count with
  | none => rfl
  | some rows =>
      simp only [Option.bind_some]
      cases rows.mapM (t.trackEntry request.pid) with
      | none => rfl
      | some entries => rfl

theorem execute_isSome_iff (stmt : Stmt) {offset count : Nat} (limits : offset ≠ 0 ∨ count ≠ 0) :
    (execute stmt offset count).isSome ↔ count ≠ 0 ∧ count < 2 ^ 63 ∧ offset < 2 ^ 63 := by
  unfold execute fitsInteger
  by_cases no_limit : count = 0
  · simp [no_limit, limits.resolve_right (not_not.mpr no_limit)]
  · rw [if_neg no_limit]
    split
    · rename_i fits
      simp only [decide_eq_true_eq] at fits
      simp only [Option.isSome_some, true_iff]
      omega
    · rename_i unfit
      simp only [decide_eq_true_eq] at unfit
      simp only [Option.isSome_none, Bool.false_eq_true, false_iff]
      omega

theorem execute_eq_page {stmt : Stmt} {offset count : Nat} {rows : List Nat}
    (limit : count ≠ 0) (ran : execute stmt offset count = some rows) :
    rows = Paging.page stmt.rows offset count := by
  unfold execute at ran
  rw [if_neg limit] at ran
  obtain ⟨-, ran⟩ := Option.ite_none_right_eq_some.mp ran
  rw [Paging.page, if_neg limit]
  exact (Option.some.inj ran).symm

/-- A turn of the browsing, in any state of the counts. -/
theorem paged_iff (cache : StmtCache) (request : ItemsRequest) :
    t.Paged request
        (t.browseItems cache request.folder request.pid request.offset request.count).2 ↔
      t.Pageable cache request := by
  obtain ⟨all, entries⟩ := t.exists_entries request
  by_cases whole : t.Whole cache request
  · rw [t.browseItems_whole entries whole]
    refine iff_of_true ⟨all, _, entries, rfl, .inl ⟨rfl, rfl, ?_⟩⟩ ?_
    · exact List.mergeSort_perm _ _
    · exact whole.elim .inl fun short => .inr (.inl short)
  · rw [t.browseItems_part whole]
    have asked : request.offset ≠ 0 ∨ request.count ≠ 0 := by
      have := not_or.mp whole
      omega
    have size : all.length = (t.rows request).length := MapM.length_of_eq_some entries
    constructor
    · rintro ⟨all', reply, entries', replied, kind⟩
      rw [entries, Option.some.injEq] at entries'
      subst entries'
      obtain ⟨rows, ran, found⟩ := Option.bind_eq_some_iff.mp replied
      obtain ⟨selected, -, rfl⟩ := Option.map_eq_some_iff.mp found
      have limits := (execute_isSome_iff _ asked).mp (Option.isSome_of_eq_some ran)
      rcases kind with ⟨none_known, -⟩ | ⟨known, -⟩
      · exact absurd none_known (by dsimp only; omega)
      · refine .inr (.inr ⟨?_, limits⟩)
        dsimp only at known
        omega
    · intro pageable
      obtain ⟨known, limits⟩ : t.knownTotal cache request = (t.rows request).length ∧
          request.count ≠ 0 ∧ request.count < 2 ^ 63 ∧ request.offset < 2 ^ 63 := by
        have := not_or.mp whole
        exact (pageable.resolve_left this.1).resolve_left this.2
      obtain ⟨rows, ran⟩ := Option.isSome_iff_exists.mp
        ((execute_isSome_iff (t.itemsStmt request.folder) asked).mpr limits)
      have page : rows.mapM (t.trackEntry request.pid) =
          some (Paging.page all request.offset request.count) := by
        rw [execute_eq_page limits.1 ran, Paging.page, Paging.page, if_neg limits.1,
          if_neg limits.1]
        exact MapM.take_of_eq_some (MapM.drop_of_eq_some entries _) _
      refine ⟨all, ⟨Paging.page all request.offset request.count, request.offset,
        t.knownTotal cache request⟩, entries, ?_, .inr ⟨?_, rfl, rfl⟩⟩
      · rw [ran, Option.bind_some, page]
        rfl
      · dsimp only
        omega

/-- The requests for pages of one size which follow each other. -/
def consecutive (request : ItemsRequest) (pages : Nat) : List ItemsRequest :=
  (List.range pages).map fun i => { request with offset := i * request.count }

/-- The entries of the replies, one after the other. -/
def gathered (replies : List (Option Reply)) : List Entry :=
  replies.flatMap fun reply => (reply.map Reply.entries).getD []

/-- The replies are parts of the list. -/
def Parts (replies : List (Option Reply)) : Prop :=
  ∀ r, some r ∈ replies → r.total ≠ -1

/-- What the parts of one list are, is what is asked for. -/
theorem gathered_of_paged {folder pid : Str} {all : List Entry} {requests : List ItemsRequest}
    {replies : List (Option Reply)}
    (same : ∀ request ∈ requests, request.folder = folder ∧ request.pid = pid)
    (entries : (t.itemsStmt folder).rows.mapM (t.trackEntry pid) = some all)
    (paged : List.Forall₂ t.Paged requests replies) (parts : Parts replies) :
    gathered replies =
      requests.flatMap fun request => Paging.page all request.offset request.count := by
  induction paged with
  | nil => rfl
  | @cons request reply requests replies first rest ih =>
      have later := ih (fun other member => same other (List.mem_cons_of_mem _ member))
        (fun r member => parts r (List.mem_cons_of_mem _ member))
      obtain ⟨rfl, rfl⟩ := same request List.mem_cons_self
      obtain ⟨all', r, entries', rfl, kind⟩ := first
      have known : all' = all := by
        rw [rows, entries] at entries'
        exact (Option.some.inj entries').symm
      obtain ⟨-, -, page⟩ := kind.resolve_left fun whole => parts r List.mem_cons_self whole.1
      have one : gathered (some r :: replies) = r.entries ++ gathered replies := rfl
      rw [one, page, known, later, List.flatMap_cons]

/-- Pages which follow each other cover every track once. -/
theorem gathered_consecutive {request : ItemsRequest} {pages : Nat} {all : List Entry}
    {replies : List (Option Reply)} (limit : request.count ≠ 0)
    (enough : (t.rows request).length ≤ pages * request.count)
    (entries : (t.rows request).mapM (t.trackEntry request.pid) = some all)
    (paged : List.Forall₂ t.Paged (consecutive request pages) replies) (parts : Parts replies) :
    gathered replies = all := by
  have same : ∀ page ∈ consecutive request pages,
      page.folder = request.folder ∧ page.pid = request.pid := by
    intro page member
    obtain ⟨i, -, rfl⟩ := List.mem_map.mp member
    exact ⟨rfl, rfl⟩
  rw [t.gathered_of_paged same entries paged parts, consecutive, List.flatMap_map]
  dsimp only
  rw [Paging.flatMap_page all limit]
  apply List.take_of_length_le
  rw [MapM.length_of_eq_some entries]
  exact enough

/-- In a run of the browsing each reply is the whole list or the page which is asked for as long
as everything is asked for or the list is short, or the number of tracks is the right one and there
is a count. Pages which follow each other then cover every track once. -/
theorem pages_faithful_iff (t : Tagged) (cache : StmtCache) (requests : List ItemsRequest) :
    (Machine.Along (fun _ request _ reply => t.Paged request reply) t.step cache requests ↔
      Machine.Along (fun cache request _ _ => t.Pageable cache request) t.step cache requests) ∧
    ∀ request pages cache' replies, request.count ≠ 0 →
      (t.rows request).length ≤ pages * request.count →
      requests = consecutive request pages →
      Machine.Along (fun cache request _ _ => t.Pageable cache request) t.step cache requests →
      Machine.run t.step cache requests = some (cache', replies) → Parts replies →
      (t.rows request).mapM (t.trackEntry request.pid) = some (gathered replies) := by
  have agree : ∀ (cache : StmtCache) request cache' reply, True →
      t.step cache request = some (cache', reply) →
      (t.Paged request reply ↔ t.Pageable cache request) ∧ (t.Paged request reply → True) := by
    intro cache request cache' reply _ taken
    cases taken
    exact ⟨t.paged_iff cache request, fun _ => trivial⟩
  have exact_ := Machine.along_iff_of_invariant agree cache requests trivial
  refine ⟨exact_, fun request pages cache' replies limit enough same pageable ran parts => ?_⟩
  obtain ⟨all, entries⟩ := t.exists_entries request
  subst same
  have each : List.Forall₂ t.Paged (consecutive request pages) replies :=
    (Machine.forall₂_of_along (exact_.mpr pageable) ran).imp fun _ _ ⟨_, _, paged⟩ => paged
  rw [entries, t.gathered_consecutive limit enough entries each parts]

/-- Documents of one folder, all of them tracks. -/
def alike (size : Nat) : Tagged where
  env := bareEnv []
  lower := id
  rcldocs := List.replicate size (docAt "audio/flac" "/m/a.flac")
  albums := []
  distinct := List.nodup_nil
  displayed _ member := nomatch member
  tracks := (List.range size).map fun docidx =>
    { docidx, album_id := 1, trackno := 1, path := "/m/a.flac".toList }
  listable := by
    intro row member
    obtain ⟨docidx, inside, rfl⟩ := List.mem_map.mp member
    refine ⟨docAt "audio/flac" "/m/a.flac", ?_, by decide, by decide⟩
    exact List.getElem?_replicate.trans (if_pos (List.mem_range.mp inside))

theorem knownTotal_alike (size : Nat) (pid : Str) (offset count : Nat) :
    (alike size).knownTotal {} { pid, offset, count } = size := by
  simp [knownTotal, rows, itemsStmt, alike]

/-- A long list without its beginning: a statement which has an offset and no limit. -/
theorem not_paged_of_offset_alone {size offset : Nat} (long : 1000 ≤ size) (later : offset ≠ 0)
    (pid : Str) :
    ¬ Machine.Along (fun _ request _ reply => (alike size).Paged request reply) (alike size).step {}
      [{ pid, offset, count := 0 }] := by
  rintro ⟨paged, -⟩
  rcases ((alike size).paged_iff {} { pid, offset, count := 0 }).mp paged with
    ⟨start, -⟩ | short | ⟨-, limit, -⟩
  · exact later start
  · rw [knownTotal_alike] at short
    omega
  · exact limit rfl

theorem offset_alone_raises :
    ¬ Machine.Along (fun _ request _ reply => (alike 1000).Paged request reply) (alike 1000).step {}
      [{ pid := "0$uprcl$items".toList, offset := 1, count := 0 }] :=
  not_paged_of_offset_alone (Nat.le_refl 1000) (by decide) _

end Tagged

end Upmpdcli.Uprcl
