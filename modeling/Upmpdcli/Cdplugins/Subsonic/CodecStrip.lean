import Upmpdcli.Cdplugins.Subsonic.Identifier
import Upmpdcli.Lib.Text

set_option autoImplicit false

/- The codec at the end of the title of an album. -/
namespace Upmpdcli.Subsonic.AlbumUtil

inductive CodecDelimiterStyle
  | square
  | round
deriving DecidableEq

namespace CodecDelimiterStyle

def left : CodecDelimiterStyle → Char
  | square => '['
  | round => '('

def right : CodecDelimiterStyle → Char
  | square => ']'
  | round => ')'

/-- The members of the enumeration, in their order. -/
def members : List CodecDelimiterStyle := [square, round]

end CodecDelimiterStyle

/-- A regular expression. -/
def to_codec_pattern (codec : Str) (style : CodecDelimiterStyle) : Str :=
  ' ' :: '\\' :: style.left :: (codec ++ ['\\', style.right])

section Strip

-- `re.search`: it raises for what is not a regular expression, and gives where the match begins and
-- where it ends
variable (search : Str → Str → Option (Option (Nat × Nat)))

def strip_substring (initial_str pattern : Str) : Option Str :=
  (search pattern initial_str).map fun found =>
    match found with
    | none => initial_str
    | some (start, stop) =>
        (if 0 < start then initial_str.take start else []) ++
          if stop + 1 < initial_str.length then initial_str.drop stop else []

/-- The pattern is the one of the round style at every turn. -/
def strip_codec_from_album (album_title : Str) (codecs : List Str) : Option Str :=
  match codecs with
  | [codec] =>
      CodecDelimiterStyle.members.foldlM (fun stripped_title _ =>
        let codec_pattern := to_codec_pattern codec .round
        if codec_pattern.isPrefixOf album_title then some stripped_title
        else strip_substring search album_title codec_pattern) album_title
  | _ => some album_title

end Strip

/-- What the code is to remove. -/
def suffix (codec : Str) (style : CodecDelimiterStyle) : Str :=
  ' ' :: style.left :: (codec ++ [style.right])

/-- The title has the suffix, and not at its start. -/
def Uses (title codec : Str) (style : CodecDelimiterStyle) : Prop :=
  ∃ start, Text.find (suffix codec style) title = some start ∧ 0 < start

/-- The title without the first occurrence of a part. -/
def without (part title : Str) : Str :=
  match Text.find part title with
  | none => title
  | some start => title.take start ++ title.drop (start + part.length)

/-- The suffix of a style which the title uses is removed; without one the title stays. -/
def Strips (search : Str → Str → Option (Option (Nat × Nat))) (title codec : Str) : Prop :=
  ∃ result, strip_codec_from_album search title [codec] = some result ∧
    ((∃ style, Uses title codec style ∧ result = without (suffix codec style) title) ∨
      (∀ style, ¬ Uses title codec style) ∧ result = title)

/-- The first match is the first occurrence of the suffix. -/
def Finds (search : Str → Str → Option (Option (Nat × Nat))) (title codec : Str) : Prop :=
  search (to_codec_pattern codec .round) title =
    some ((Text.find (suffix codec .round) title).map fun start =>
      (start, start + (suffix codec .round).length))

/-- What is documented of `re`: characters which are not special match themselves, and the others
do so behind a backslash. -/
def Literal (search : Str → Str → Option (Option (Nat × Nat))) : Prop :=
  ∀ title codec : Str, (∀ c ∈ codec, c ∉ ".^$*+?{}[]\\|()".toList) → Finds search title codec

/-- A title with the round suffix doesn't begin with it, nor with the text of its pattern, and not
just one character follows behind the first one. A title without it hasn't the square one either. -/
def Strippable (title codec : Str) : Prop :=
  match Text.find (suffix codec .round) title with
  | none => ¬ Uses title codec .square
  | some start =>
      0 < start ∧ (to_codec_pattern codec .round).isPrefixOf title = false ∧
        title.length ≠ start + (suffix codec .round).length + 1

theorem length_suffix (codec : Str) (style : CodecDelimiterStyle) :
    (suffix codec style).length = codec.length + 3 := by
  simp [suffix]

/-- The text around an occurrence. -/
theorem exists_around {part title : Str} {start : Nat} (found : Text.find part title = some start) :
    ∃ before behind, title = before ++ (part ++ behind) ∧ before.length = start ∧
      without part title = before ++ behind := by
  obtain ⟨before, behind, split, long⟩ := Text.find_eq_some found
  refine ⟨before, behind, split, long, ?_⟩
  unfold without
  rw [found]
  dsimp only
  rw [split, ← long, List.take_left, ← List.drop_drop, List.drop_left, List.drop_left]

/-- What is left of the title, when the pattern finds the suffix. -/
theorem strip_of_finds {search : Str → Str → Option (Option (Nat × Nat))} {title codec : Str}
    (finds : Finds search title codec) : strip_codec_from_album search title [codec] =
      if (to_codec_pattern codec .round).isPrefixOf title then some title
      else
        match Text.find (suffix codec .round) title with
        | none => some title
        | some start =>
            some ((if 0 < start then title.take start else []) ++
              if start + (suffix codec .round).length + 1 < title.length then
                title.drop (start + (suffix codec .round).length) else []) := by
  have turn : strip_substring search title (to_codec_pattern codec .round) =
      match Text.find (suffix codec .round) title with
      | none => some title
      | some start =>
          some ((if 0 < start then title.take start else []) ++
            if start + (suffix codec .round).length + 1 < title.length then
              title.drop (start + (suffix codec .round).length) else []) := by
    unfold strip_substring
    rw [finds]
    cases Text.find (suffix codec .round) title with
    | none => rfl
    | some start => rfl
  unfold strip_codec_from_album CodecDelimiterStyle.members
  dsimp only
  rw [← turn]
  by_cases skip : (to_codec_pattern codec .round).isPrefixOf title = true
  · simp [skip]
  · cases strip_substring search title (to_codec_pattern codec .round) with
    | none => simp [skip]
    | some stripped => simp [skip]

/-- A suffix which the title uses is a part of it. -/
theorem length_without {title codec : Str} {style : CodecDelimiterStyle}
    (uses : Uses title codec style) :
    (without (suffix codec style) title).length + (codec.length + 3) = title.length := by
  obtain ⟨start, found, -⟩ := uses
  obtain ⟨before, behind, split, -, rest⟩ := exists_around found
  rw [rest, split, ← length_suffix codec style]
  simp only [List.length_append]
  omega

/-- The square suffix has one round bracket less than the round one. -/
theorem count_without {title codec : Str} (uses : Uses title codec .square) :
    (without (suffix codec .square) title).count '(' + codec.count '(' = title.count '(' := by
  obtain ⟨start, found, -⟩ := uses
  obtain ⟨before, behind, split, -, rest⟩ := exists_around found
  have part : (suffix codec .square).count '(' = codec.count '(' := by
    simp [suffix, CodecDelimiterStyle.left, CodecDelimiterStyle.right]
  rw [rest, split, List.count_append, List.count_append, List.count_append, part]
  omega

/-- The result, whatever style is removed, has the length of the title less that of a suffix. -/
theorem not_strips_of_length {search : Str → Str → Option (Option (Nat × Nat))}
    {title codec result : Str}
    (stripped : strip_codec_from_album search title [codec] = some result)
    {style : CodecDelimiterStyle} (uses : Uses title codec style)
    (long : result.length + (codec.length + 3) ≠ title.length) : ¬ Strips search title codec := by
  rintro ⟨other, stripped', ⟨style', uses', rfl⟩ | ⟨none, -⟩⟩
  · rw [stripped, Option.some_inj] at stripped'
    rw [stripped'] at long
    exact long (length_without uses')
  · exact none style uses

/-- A title which begins with the round suffix loses it, although it is at the start. -/
theorem not_strips_of_start {search : Str → Str → Option (Option (Nat × Nat))} {title codec : Str}
    (finds : Finds search title codec) (begun : Text.find (suffix codec .round) title = some 0) :
    ¬ Strips search title codec := by
  obtain ⟨before, behind, split, long, -⟩ := exists_around begun
  rw [List.length_eq_zero_iff.mp long, List.nil_append] at split
  have other : (to_codec_pattern codec .round).isPrefixOf title = false := by
    rw [split]
    rfl
  have stripped := strip_of_finds finds
  rw [begun, other, if_neg Bool.false_ne_true, length_suffix] at stripped
  dsimp only at stripped
  have size : title.length = codec.length + 3 + behind.length := by
    rw [split, List.length_append, length_suffix]
  have rest : title.drop (0 + (codec.length + 3)) = behind := by
    rw [split, Nat.zero_add, ← length_suffix codec .round, List.drop_left]
  have brackets : title.count '(' = codec.count '(' + 1 + behind.count '(' := by
    rw [split, List.count_append]
    simp [suffix, CodecDelimiterStyle.left, CodecDelimiterStyle.right]
  rw [if_neg (Nat.lt_irrefl 0), List.nil_append, rest] at stripped
  rintro ⟨result, same, ⟨style, uses, removed⟩ | ⟨-, kept⟩⟩
  · rw [stripped, Option.some_inj] at same
    cases style with
    | round =>
        obtain ⟨start, found, later⟩ := uses
        rw [begun, Option.some_inj] at found
        omega
    | square =>
        have shorter := length_without uses
        have fewer := count_without uses
        obtain ⟨start, found, later⟩ := uses
        obtain ⟨first, others, around, place, -⟩ := exists_around found
        have room := congrArg List.length around
        rw [List.length_append, List.length_append, length_suffix] at room
        rw [← removed, ← same] at shorter fewer
        split at shorter
        · rename_i long
          rw [if_pos long] at fewer
          omega
        · simp only [List.length_nil] at shorter
          omega
  · rw [stripped, Option.some_inj, kept] at same
    have lost := congrArg List.length same
    split at lost
    · omega
    · simp only [List.length_nil] at lost
      omega

/-- When the pattern finds the suffix, as it does for every codec without special characters, the
suffix is removed exactly from the titles which are strippable. -/
theorem strips_iff {search : Str → Str → Option (Option (Nat × Nat))} (literal : Literal search)
    (title codec : Str) :
    (Finds search title codec → (Strips search title codec ↔ Strippable title codec)) ∧
      ((∀ c ∈ codec, c ∉ ".^$*+?{}[]\\|()".toList) → Finds search title codec) := by
  refine ⟨fun finds => ?_, literal title codec⟩
  have stripped := strip_of_finds finds
  unfold Strippable
  cases found : Text.find (suffix codec .round) title with
  | none =>
      have unused : ¬ Uses title codec .round := by
        rintro ⟨start, found', -⟩
        rw [found] at found'
        cases found'
      rw [found] at stripped
      have same : strip_codec_from_album search title [codec] = some title := by
        rw [stripped]
        split <;> rfl
      constructor
      · intro strips uses
        refine not_strips_of_length same uses ?_ strips
        omega
      · intro square
        refine ⟨title, same, .inr ⟨fun style => ?_, rfl⟩⟩
        cases style with
        | square => exact square
        | round => exact unused
  | some start =>
      obtain ⟨before, behind, split, long, rest⟩ := exists_around found
      have size := congrArg List.length split
      rw [List.length_append, List.length_append, length_suffix] at size
      rw [found, length_suffix] at stripped
      rw [length_suffix]
      dsimp only at stripped ⊢
      by_cases begun : start = 0
      · rw [begun] at found
        exact iff_of_false (not_strips_of_start finds found) fun all => by omega
      · have uses : Uses title codec .round := ⟨start, found, Nat.pos_of_ne_zero begun⟩
        cases skip : (to_codec_pattern codec .round).isPrefixOf title with
        | true =>
            rw [skip, if_pos rfl] at stripped
            refine iff_of_false (not_strips_of_length stripped uses (by omega)) ?_
            exact fun all => Bool.false_ne_true all.2.1.symm
        | false =>
            have first : title.take start = before := by rw [split, ← long, List.take_left]
            have last : title.drop (start + (codec.length + 3)) = behind := by
              rw [split, ← long, ← length_suffix codec .round, ← List.drop_drop, List.drop_left,
                List.drop_left]
            rw [skip, if_neg Bool.false_ne_true, if_pos (Nat.pos_of_ne_zero begun), first,
              last] at stripped
            by_cases one : behind.length = 1
            · rw [if_neg (by omega), List.append_nil] at stripped
              refine iff_of_false (not_strips_of_length stripped uses (by omega)) ?_
              exact fun all => all.2.2 (by omega)
            · refine iff_of_true ⟨before ++ behind, ?_, .inl ⟨.round, uses, rest.symm⟩⟩ ?_
              · rw [stripped]
                split
                · rfl
                · have empty : behind = [] := List.length_eq_zero_iff.mp (by omega)
                  rw [empty]
              · exact ⟨Nat.pos_of_ne_zero begun, rfl, by omega⟩

/-- The regular expressions which are a text with backslashes. -/
def unescape : Str → Str
  | '\\' :: c :: rest => c :: unescape rest
  | c :: rest => c :: unescape rest
  | [] => []

def literalSearch (pattern title : Str) : Option (Option (Nat × Nat)) :=
  some ((Text.find (unescape pattern) title).map fun start =>
    (start, start + (unescape pattern).length))

theorem literal_literalSearch : Literal literalSearch := by
  intro title codec plain
  have text : unescape (to_codec_pattern codec .round) = suffix codec .round := by
    have inside : ∀ codec : Str, (∀ c ∈ codec, c ∉ ".^$*+?{}[]\\|()".toList) →
        unescape (codec ++ ['\\', ')']) = codec ++ [')'] := by
      intro codec plain
      induction codec with
      | nil => rfl
      | cons c codec ih =>
          have not_backslash : c ≠ '\\' := by
            rintro rfl
            exact plain _ List.mem_cons_self (by decide)
          rw [List.cons_append, unescape.eq_2,
            ih fun d member => plain d (List.mem_cons_of_mem c member)]
          · rfl
          · intro d rest same
            exact absurd same not_backslash
    exact congrArg (fun rest => ' ' :: '(' :: rest) (inside codec plain)
  unfold Finds literalSearch
  rw [text]

theorem strips_flac :
    let title := "Kind of Blue (flac) live".toList
    Strips literalSearch title "flac".toList := by
  intro title
  obtain ⟨same, finds⟩ := strips_iff literal_literalSearch title "flac".toList
  have strippable : Strippable title "flac".toList := by
    have found : Text.find (suffix "flac".toList .round) title = some 12 := by decide
    unfold Strippable
    rw [found]
    exact ⟨by decide, by decide, by decide⟩
  exact (same (finds (by simp))).mpr strippable

/-- The square style is never removed. -/
theorem square_not_stripped :
    ¬ ∀ search, Literal search → ∀ title codec, Strips search title codec := by
  intro strips
  let title := "Kind of Blue [flac]".toList
  let codec := "flac".toList
  have uses : Uses title codec .square := ⟨12, by decide, by decide⟩
  have kept : strip_codec_from_album literalSearch title [codec] = some title := by decide
  exact not_strips_of_length kept uses (by decide) (strips literalSearch literal_literalSearch _ _)

end Upmpdcli.Subsonic.AlbumUtil
