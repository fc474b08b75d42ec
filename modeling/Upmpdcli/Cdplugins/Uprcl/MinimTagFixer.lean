import Upmpdcli.Bytes
import Upmpdcli.Lib.Dict
import Upmpdcli.Lib.VarMap

set_option autoImplicit false

/- The tag updates of the minimserver configuration. -/
namespace Upmpdcli.Uprcl.MinimTagFixer

/-- The tags of a file. -/
abbrev Tags := List (String × Bytes)

/-- A group of directives: `@`, `&`, then `=` or `+`, then `-`. The values of the last are empty. -/
structure Group where
  seltags : List (String × Bytes)
  filtertags : List (String × Bytes) := []
  tagadds : List (String × Bytes) := []
  tagdels : List (String × Bytes) := []
deriving DecidableEq

/-- `del tags[tag]`. -/
def delete (tags : Tags) (tag : String) : Tags := tags.filter (·.1 ≠ tag)

/-- The loop of the deletions. An exception has the missing tag, and the tags as they are left. -/
def deleteAll : List (String × Bytes) → Tags → Except (String × Tags) Tags
  | [], tags => .ok tags
  | (tag, _) :: rest, tags =>
      if (tags.lookup tag).isSome then deleteAll rest (delete tags tag) else .error (tag, tags)

namespace Group

def holds (tags : Tags) (condition : String × Bytes) : Bool :=
  tags.lookup condition.1 = some condition.2

/-- One of the `@` conditions and all the `&` conditions. -/
def selects (group : Group) (tags : Tags) : Bool :=
  group.seltags.any (holds tags) && group.filtertags.all (holds tags)

def adds (group : Group) (tags : Tags) : Tags :=
  group.tagadds.foldl (fun tags add => Dict.set tags add.1 add.2) tags

end Group

/-- The loop over the groups, which is left at a group which is not selected. -/
def tagupdate : List Group → Tags → Except (String × Tags) Tags
  | [], tags => .ok tags
  | group :: rest, tags =>
      if group.seltags.any (Group.holds tags) then
        if group.filtertags.all (Group.holds tags) then
          match deleteAll group.tagdels (group.adds tags) with
          | .error raised => .error raised
          | .ok tags => tagupdate rest tags
        else .ok tags
      else .ok tags

/-- What a group is for. -/
def Group.apply (group : Group) (tags : Tags) : Tags :=
  if group.selects tags then
    group.tagdels.foldl (fun tags del => delete tags del.1) (group.adds tags)
  else tags

/-- What all the groups are for. -/
def applyAll (groups : List Group) (tags : Tags) : Tags :=
  groups.foldl (fun tags group => group.apply tags) tags

/-- The update goes through, and each group has been applied to what those before it have left. -/
def Independent (groups : List Group) (tags : Tags) : Prop :=
  ∃ result, tagupdate groups tags = .ok result ∧ VarMap.Same result (applyAll groups tags)

/-- No tag is deleted twice, and each is there when the additions have been made. -/
def Group.Deletes (group : Group) (tags : Tags) : Prop :=
  (group.tagdels.map Prod.fst).Nodup ∧
    ∀ tag ∈ group.tagdels.map Prod.fst, ((group.adds tags).lookup tag).isSome

/-- As long as the groups are selected they delete what is there, and those behind the first one
which is not would change nothing. -/
def Applies : List Group → Tags → Prop
  | [], _ => True
  | group :: rest, tags =>
      if group.selects tags then group.Deletes tags ∧ Applies rest (group.apply tags)
      else VarMap.Same (applyAll rest tags) tags

theorem lookup_delete (tags : Tags) (tag other : String) :
    (delete tags tag).lookup other = if other = tag then none else tags.lookup other := by
  induction tags with
  | nil => simp [delete]
  | cons entry rest ih =>
      obtain ⟨name, content⟩ := entry
      unfold delete at ih ⊢
      rw [List.filter_cons, List.lookup_cons]
      by_cases here : name = tag
      · subst here
        rw [if_neg (by simp), ih]
        by_cases same : other = name
        · simp [same]
        · simp [same, beq_false_of_ne same]
      · rw [if_pos (by simpa using here), List.lookup_cons, ih]
        by_cases same : other = name
        · subst same
          simp [here]
        · simp [beq_false_of_ne same]

/-- The deletions go through exactly when each tag is there and none comes twice. -/
theorem deleteAll_eq_ok_iff (dels : List (String × Bytes)) (tags result : Tags) :
    deleteAll dels tags = .ok result ↔
      ((dels.map Prod.fst).Nodup ∧ ∀ tag ∈ dels.map Prod.fst, (tags.lookup tag).isSome) ∧
        result = dels.foldl (fun tags del => delete tags del.1) tags := by
  induction dels generalizing tags with
  | nil =>
      rw [deleteAll, Except.ok.injEq]
      exact ⟨fun same => ⟨⟨List.nodup_nil, by simp⟩, same.symm⟩, fun all => all.2.symm⟩
  | cons del rest ih =>
      obtain ⟨tag, value⟩ := del
      rw [deleteAll]
      split
      · rename_i there
        rw [ih]
        -- behind the first deletion the others are still there, unless it was one of them
        have others : (∀ other ∈ rest.map Prod.fst, ((delete tags tag).lookup other).isSome) ↔
            tag ∉ rest.map Prod.fst ∧ ∀ other ∈ rest.map Prod.fst, (tags.lookup other).isSome := by
          constructor
          · intro each
            refine ⟨fun member => ?_, fun other member => ?_⟩
            · have gone := each tag member
              rw [lookup_delete, if_pos rfl] at gone
              cases gone
            · have kept := each other member
              rw [lookup_delete] at kept
              split at kept
              · cases kept
              · exact kept
          · rintro ⟨absent, each⟩ other member
            have differ : other ≠ tag := by
              rintro rfl
              exact absent member
            rw [lookup_delete, if_neg differ]
            exact each other member
        rw [others, List.map_cons, List.nodup_cons, List.forall_mem_cons, List.foldl_cons]
        tauto
      · rename_i missing
        apply iff_of_false
        · exact fun impossible => nomatch impossible
        · exact fun all => missing (all.1.2 tag List.mem_cons_self)

theorem tagupdate_of_selects {group : Group} {tags : Tags} (selected : group.selects tags = true)
    (rest : List Group) : tagupdate (group :: rest) tags =
      (deleteAll group.tagdels (group.adds tags)).bind (tagupdate rest) := by
  obtain ⟨some_one, all⟩ := Bool.and_eq_true_iff.mp selected
  rw [tagupdate, if_pos some_one, if_pos all]
  cases deleteAll group.tagdels (group.adds tags) with
  | error raised => rfl
  | ok tags => rfl

theorem tagupdate_of_not_selects {group : Group} {tags : Tags}
    (other : group.selects tags = false) (rest : List Group) :
    tagupdate (group :: rest) tags = .ok tags := by
  rw [tagupdate]
  split
  · rename_i some_one
    unfold Group.selects at other
    rw [some_one, Bool.true_and] at other
    rw [other, if_neg Bool.false_ne_true]
  · rfl

theorem apply_of_selects {group : Group} {tags : Tags} (selected : group.selects tags = true) :
    group.apply tags = group.tagdels.foldl (fun tags del => delete tags del.1) (group.adds tags) :=
  if_pos selected

theorem apply_of_not_selects {group : Group} {tags : Tags} (other : group.selects tags = false) :
    group.apply tags = tags := by
  unfold Group.apply
  rw [other, if_neg Bool.false_ne_true]

/-- When the groups are independent of each other. -/
theorem independent_iff (groups : List Group) (tags : Tags) :
    Independent groups tags ↔ Applies groups tags := by
  induction groups generalizing tags with
  | nil => exact iff_of_true ⟨tags, rfl, VarMap.Same.refl tags⟩ trivial
  | cons group rest ih =>
      rw [Applies]
      cases selected : group.selects tags with
      | true =>
          rw [if_pos rfl, ← ih, apply_of_selects selected]
          unfold Independent Group.Deletes
          rw [tagupdate_of_selects selected, applyAll, List.foldl_cons, apply_of_selects selected]
          constructor
          · rintro ⟨result, ran, same⟩
            cases deleted : deleteAll group.tagdels (group.adds tags) with
            | error raised =>
                rw [deleted] at ran
                cases ran
            | ok after =>
                obtain ⟨there, rfl⟩ := (deleteAll_eq_ok_iff _ _ _).mp deleted
                rw [deleted] at ran
                exact ⟨there, result, ran, same⟩
          · rintro ⟨there, result, ran, same⟩
            rw [(deleteAll_eq_ok_iff _ _ _).mpr ⟨there, rfl⟩]
            exact ⟨result, ran, same⟩
      | false =>
          rw [if_neg Bool.false_ne_true]
          unfold Independent
          rw [tagupdate_of_not_selects selected, applyAll, List.foldl_cons,
            apply_of_not_selects selected]
          constructor
          · rintro ⟨_, ⟨⟩, same⟩
            exact fun tag => (same tag).symm
          · intro same
            exact ⟨tags, rfl, fun tag => (same tag).symm⟩

/-- The first group is for another artist. -/
theorem later_group_not_applied : ¬ ∀ groups tags, Independent groups tags := by
  intro independent
  let bach : Bytes := "Bach".toList.map byte
  let other : Group := { seltags := [("artist", [])] }
  let group : Group := { seltags := [("artist", bach)], tagadds := [("composer", bach)] }
  obtain ⟨result, ran, same⟩ := independent [other, group] [("artist", bach)]
  have left : result = [("artist", bach)] := (Except.ok.inj ran).symm
  rw [left] at same
  exact absurd (same "composer") (by decide)

end Upmpdcli.Uprcl.MinimTagFixer
