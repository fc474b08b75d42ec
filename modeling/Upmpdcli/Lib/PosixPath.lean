import Mathlib.Data.List.DropRight

set_option autoImplicit false

/- Paths as `posixpath` takes them apart, over any characters. -/
namespace PosixPath

/-- The characters which mean something in a path. -/
class PathChar (α : Type*) where
  slash : α
  dot : α

instance : PathChar Char := ⟨'/', '.'⟩

instance : PathChar UInt8 := ⟨0x2f, 0x2e⟩

open PathChar

variable {α : Type*} [DecidableEq α] [PathChar α]

/-- What is behind the last slash. -/
def basename (path : List α) : List α := path.rtakeWhile (· ≠ slash)

/-- What is before the last slash, which is kept only when there is nothing else. -/
def dirname (path : List α) : List α :=
  let head := path.rdropWhile (· ≠ slash)
  if head.all (· = slash) then head else head.rdropWhile (· = slash)

def isabs (path : List α) : Bool := path.head? = some slash

def join (path other : List α) : List α :=
  if isabs other then other
  else if path = [] ∨ path.getLast? = some slash then path ++ other
  else path ++ slash :: other

def components (path : List α) : List (List α) := path.splitOn slash

/-- One turn of the loop of `normpath`. -/
def pushComponent (absolute : Bool) (stack : List (List α)) (component : List α) :
    List (List α) :=
  if component = [] ∨ component = [dot] then stack
  else if component ≠ [dot, dot] ∨ (absolute = false ∧ stack = []) ∨
      stack.getLast? = some [dot, dot] then stack ++ [component]
  else stack.dropLast

/-- Two slashes at the beginning are kept, and no other number of them. -/
def leading (path : List α) : List α :=
  if [slash, slash].isPrefixOf path ∧ ¬ [slash, slash, slash].isPrefixOf path then [slash, slash]
  else if isabs path then [slash]
  else []

def normpath (path : List α) : List α :=
  let normal := leading path ++
    [slash].intercalate ((components path).foldl (pushComponent (isabs path)) [])
  if normal = [] then [dot] else normal

/-- The directory or file reached from a directory along the components of a text. A directory
is the list of its names from the root, and none of them is a symbolic link. -/
def walk (start : List (List α)) (path : List α) : List (List α) :=
  (components path).foldl (pushComponent true) start

/-- Where a path leads in a process with this working directory. -/
def place (cwd : List (List α)) (path : List α) : List (List α) :=
  if isabs path then walk [] path else walk cwd path

theorem walk_nil (start : List (List α)) : walk start [] = start := by
  rw [walk, components, List.splitOn_nil, List.foldl_cons, List.foldl_nil, pushComponent,
    if_pos (.inl rfl)]

theorem walk_append (start : List (List α)) (before after : List α) :
    walk start (before ++ slash :: after) = walk (walk start before) after := by
  rw [walk, components, List.splitOn_append_cons_self, List.foldl_append]
  rfl

theorem walk_slash (start : List (List α)) (path : List α) :
    walk start (slash :: path) = walk start path := by
  have split := walk_append start [] path
  rwa [walk_nil] at split

theorem isabs_iff {path : List α} : isabs path = true ↔ ∃ rest, path = slash :: rest := by
  cases path with
  | nil => simp [isabs]
  | cons c rest => simp [isabs]

theorem isabs_append {path : List α} (some_char : path ≠ []) (other : List α) :
    isabs (path ++ other) = isabs path := by
  cases path with
  | nil => exact absurd rfl some_char
  | cons c rest => rfl

/-- The second path starts where the first one leads, unless it is absolute. -/
theorem place_join (cwd : List (List α)) (path other : List α) :
    place cwd (join path other) =
      if isabs other then walk [] other else walk (place cwd path) other := by
  by_cases absolute : isabs other = true
  · rw [join, if_pos absolute, place, if_pos absolute, if_pos absolute]
  · rw [join, if_neg absolute, if_neg absolute]
    split
    · rename_i ends
      rcases ends with empty | last
      · rw [empty, List.nil_append, place, if_neg absolute, place, if_neg (by simp [isabs]),
          walk_nil]
      · obtain ⟨before, rfl⟩ := List.getLast?_eq_some_iff.mp last
        have start : place cwd (before ++ [slash]) =
            if isabs (before ++ [slash]) then walk [] before else walk cwd before := by
          rw [place, walk_append, walk_append, walk_nil, walk_nil]
        rw [start, place, isabs_append (by simp), List.append_assoc, List.singleton_append,
          walk_append, walk_append]
        split
        · rfl
        · rfl
    · rename_i ends
      rw [not_or] at ends
      rw [place, isabs_append ends.1, walk_append, walk_append, place]
      split
      · rfl
      · rfl

/-- A name which a component can push. -/
structure Proper (name : List α) : Prop where
  nonempty : name ≠ []
  here : name ≠ [dot]
  parent : name ≠ [dot, dot]
  plain : slash ∉ name

theorem Proper.push {name : List α} (proper : Proper name) (stack : List (List α)) :
    pushComponent true stack name = stack ++ [name] := by
  rw [pushComponent, if_neg (by simp [proper.nonempty, proper.here]),
    if_pos (.inl proper.parent)]

theorem pushComponent_proper {stack : List (List α)} (clean : ∀ name ∈ stack, Proper name)
    {component : List α} (plain : slash ∉ component) :
    ∀ name ∈ pushComponent true stack component, Proper name := by
  unfold pushComponent
  split
  · exact clean
  · rename_i some_name
    rw [not_or] at some_name
    split
    · rename_i pushed
      intro name member
      rcases List.mem_append.mp member with old | new
      · exact clean name old
      · rw [List.mem_singleton.mp new]
        refine ⟨some_name.1, some_name.2, ?_, plain⟩
        rintro rfl
        rcases pushed with other | ⟨relative, _⟩ | last
        · exact other rfl
        · cases relative
        · have proper := clean _ (List.mem_of_getLast? last)
          exact proper.parent rfl
    · intro name member
      exact clean name (List.dropLast_subset stack member)

theorem not_mem_of_mem_components {path component : List α}
    (member : component ∈ components path) : slash ∉ component := by
  induction path generalizing component with
  | nil =>
      rw [components, List.splitOn_nil, List.mem_singleton] at member
      rw [member]
      exact List.not_mem_nil
  | cons c rest ih =>
      rw [components, List.splitOn_cons_eq_if_modifyHead] at member
      split at member
      · rcases List.mem_cons.mp member with rfl | later
        · exact List.not_mem_nil
        · exact ih later
      · rename_i other
        obtain ⟨first, others, split⟩ : ∃ first others, rest.splitOn slash = first :: others := by
          cases split : rest.splitOn (slash : α) with
          | nil => exact absurd split (List.splitOn_ne_nil _ _)
          | cons first others => exact ⟨first, others, rfl⟩
        rw [split, List.modifyHead_cons] at member
        rcases List.mem_cons.mp member with rfl | later
        · rw [List.mem_cons, not_or]
          refine ⟨?_, ih (by rw [components, split]; exact List.mem_cons_self)⟩
          rintro same
          exact other (beq_iff_eq.mpr same.symm)
        · exact ih (by rw [components, split]; exact List.mem_cons_of_mem _ later)

theorem walk_proper {start : List (List α)} (clean : ∀ name ∈ start, Proper name)
    (path : List α) : ∀ name ∈ walk start path, Proper name := by
  unfold walk
  have plain : ∀ component ∈ components path, slash ∉ component :=
    fun _ member => not_mem_of_mem_components member
  generalize components path = parts at plain
  induction parts generalizing start with
  | nil => exact clean
  | cons component rest ih =>
      rw [List.foldl_cons]
      exact ih (pushComponent_proper clean (plain component List.mem_cons_self))
        fun other member => plain other (List.mem_cons_of_mem _ member)

/-- Names which are joined by slashes are walked one by one. -/
theorem walk_intercalate {names : List (List α)} (clean : ∀ name ∈ names, Proper name)
    (start : List (List α)) : walk start ([slash].intercalate names) = start ++ names := by
  cases names with
  | nil => rw [List.intercalate_nil, walk_nil, List.append_nil]
  | cons first rest =>
      rw [walk, components, List.splitOn_intercalate slash
        (fun name member => (clean name member).plain) (List.cons_ne_nil _ _)]
      generalize first :: rest = names at clean
      induction names generalizing start with
      | nil => rw [List.foldl_nil, List.append_nil]
      | cons name names ih =>
          rw [List.foldl_cons, (clean name List.mem_cons_self).push,
            ih _ fun other member => clean other (List.mem_cons_of_mem _ member),
            List.append_assoc, List.singleton_append]

theorem walk_leading (start : List (List α)) (path other : List α) :
    walk start (leading path ++ other) = walk start other := by
  unfold leading
  split
  · rw [List.cons_append, walk_slash, List.singleton_append, walk_slash]
  · split
    · rw [List.singleton_append, walk_slash]
    · rw [List.nil_append]

theorem leading_ne_nil {path : List α} (absolute : isabs path = true) : leading path ≠ [] := by
  unfold leading
  split
  · exact List.cons_ne_nil _ _
  · exact List.cons_ne_nil _ _

/-- The normal form of an absolute path begins with its slashes. -/
theorem normpath_of_isabs {path : List α} (absolute : isabs path = true) :
    normpath path = leading path ++ [slash].intercalate (walk [] path) := by
  rw [normpath, absolute]
  exact if_neg (by simp [leading_ne_nil absolute])

theorem isabs_normpath {path : List α} (absolute : isabs path = true) :
    isabs (normpath path) = true := by
  rw [normpath_of_isabs absolute, isabs_append (leading_ne_nil absolute)]
  unfold leading
  split
  · simp [isabs]
  · simp [isabs]

/-- An absolute path leads where its normal form does. -/
theorem walk_normpath {path : List α} (absolute : isabs path = true) :
    walk [] (normpath path) = walk [] path := by
  rw [normpath_of_isabs absolute, walk_leading, walk_intercalate (walk_proper (by simp) path),
    List.nil_append]

end PosixPath
