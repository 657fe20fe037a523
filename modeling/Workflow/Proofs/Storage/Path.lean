import Mathlib.Data.List.Infix
import Workflow.Storage.Path

/-!
# Places

A path, seen from a working directory, denotes a place: the names that lead to it from the root. Two
paths denote the same file exactly when they denote the same place, so that what a path says about
files is said by `place`, and `render` writes a place in the one way in which file trees keep it.
-/
namespace Workflow.Path

/-! ## Pieces of a text -/

theorem not_mem_of_mem_splitOn {c : Char} {cs piece : List Char} (h : piece ∈ cs.splitOn c) :
    c ∉ piece := by
  induction cs generalizing piece with
  | nil => simp_all [List.splitOn_nil]
  | cons x xs ih =>
    obtain ⟨first, rest, hsplit⟩ := List.exists_cons_of_ne_nil (List.splitOn_ne_nil c xs)
    rw [List.splitOn_cons_eq_if_modifyHead] at h
    rw [hsplit] at h ih
    split_ifs at h with hx
    · rcases List.mem_cons.mp h with rfl | h
      · exact List.not_mem_nil
      · exact ih h
    · rcases List.mem_cons.mp h with rfl | h
      · have hfirst := ih List.mem_cons_self
        have hne : c ≠ x := fun he => hx (by simp [he])
        exact List.not_mem_cons_of_ne_of_not_mem hne hfirst
      · exact ih (List.mem_cons_of_mem _ h)

theorem not_mem_of_mem_pieces {c : Char} {s piece : String} (h : piece ∈ pieces c s) :
    c ∉ piece.toList := by
  obtain ⟨cs, hcs, rfl⟩ := List.mem_map.mp h
  rw [String.toList_ofList]
  exact not_mem_of_mem_splitOn hcs

theorem mem_intercalate {α : Type} {sep piece : List α} {pieces : List (List α)} {a : α}
    (h : piece ∈ pieces) (ha : a ∈ piece) : a ∈ sep.intercalate pieces := by
  induction pieces with
  | nil => cases h
  | cons first rest ih =>
    rcases rest with - | ⟨second, rest⟩
    · rwa [List.intercalate_singleton, ← List.mem_singleton.mp h]
    · rw [List.intercalate_cons_cons, List.mem_append, List.mem_append]
      rcases List.mem_cons.mp h with rfl | h
      · exact .inl (.inl ha)
      · exact .inr (ih h)

theorem mem_of_mem_pieces {c a : Char} {s piece : String} (h : piece ∈ pieces c s)
    (ha : a ∈ piece.toList) : a ∈ s.toList := by
  obtain ⟨cs, hcs, rfl⟩ := List.mem_map.mp h
  rw [String.toList_ofList] at ha
  have hmem : a ∈ [c].intercalate (s.toList.splitOn c) := mem_intercalate hcs ha
  rwa [List.intercalate_splitOn] at hmem

theorem pieces_append (c : Char) (s t : String) :
    pieces c (s ++ String.singleton c ++ t) = pieces c s ++ pieces c t := by
  simp [pieces, List.splitOn_append_cons_self]

theorem pieces_eq_singleton {c : Char} {s : String} (h : c ∉ s.toList) : pieces c s = [s] := by
  simp [pieces, List.splitOn_eq_singleton h]

theorem pieces_ne_nil (c : Char) (s : String) : pieces c s ≠ [] := by
  simp [pieces, List.splitOn_ne_nil]

theorem pieces_eq_empty {c : Char} {s : String} : pieces c s = [""] ↔ s = "" := by
  constructor
  · intro h
    obtain ⟨cs, hsplit, hcs⟩ := List.map_eq_singleton_iff.mp h
    have hnil : cs = [] := by
      rw [← @String.toList_ofList cs, hcs]
      rfl
    have htext : [c].intercalate (s.toList.splitOn c) = s.toList := List.intercalate_splitOn c
    rw [hsplit, hnil] at htext
    exact String.toList_inj.mp htext.symm
  · rintro rfl
    exact pieces_eq_singleton List.not_mem_nil

/-! ## Names -/

/-- A text that names an entry of a directory. -/
def Plain (s : String) : Prop := s ≠ "" ∧ s ≠ "." ∧ s ≠ ".." ∧ '/' ∉ s.toList

instance : DecidablePred Plain := fun _ => inferInstanceAs (Decidable (_ ∧ _ ∧ _ ∧ _))

theorem plain_of_length {s : String} (hlong : 2 < s.length) (hslash : '/' ∉ s.toList) :
    Plain s := by
  refine ⟨?_, ?_, ?_, hslash⟩
  all_goals
    rintro rfl
    exact absurd hlong (by decide)

/-- A name of an entry of a directory. -/
abbrev Name := { s : String // Plain s }

instance : Nonempty Name := ⟨⟨"_", by decide⟩⟩

/-- A text as a name; what names nothing becomes some name or other. Nothing is computed here, so
that names made from digests are not unfolded. -/
noncomputable def nameOf (s : String) : Name := Classical.epsilon fun n => n.1 = s

theorem nameOf_val {s : String} (h : Plain s) : (nameOf s).1 = s :=
  Classical.epsilon_spec (p := fun n : Name => n.1 = s) ⟨⟨s, h⟩, rfl⟩

/-- The names that lead to a file from the root, the last one first. -/
abbrev Place := List Name

/-- The path of a place. -/
def render (place : Place) : String := "/" ++ "/".intercalate (place.reverse.map (·.1))

/-- Follow the parts of a path from a place. -/
def walk : Place → List String → Place
  | place, [] => place
  | place, part :: rest =>
    if part = ".." then walk place.tail rest
    else if h : Plain part then walk (⟨part, h⟩ :: place) rest
    else walk place rest

/-- The place that a path denotes, seen from a working directory. -/
def place (cwd p : String) : Place :=
  walk (if isAbsolute p then [] else walk [] (parts cwd)) (parts p)

/-! ## Parts of a path -/

theorem mem_parts {p s : String} (h : s ∈ parts p) : s ≠ "" ∧ s ≠ "." ∧ '/' ∉ s.toList := by
  obtain ⟨hmem, hkept⟩ := List.mem_filter.mp h
  simp only [ne_eq, Bool.and_eq_true, decide_eq_true_eq] at hkept
  exact ⟨hkept.1, hkept.2, not_mem_of_mem_pieces hmem⟩

theorem parts_append (p q : String) : parts (p ++ "/" ++ q) = parts p ++ parts q := by
  rw [parts, show ("/" : String) = String.singleton '/' from rfl, pieces_append, List.filter_append]
  rfl

@[simp] theorem parts_empty : parts "" = [] := by decide

theorem parts_slash (p : String) : parts ("/" ++ p) = parts p := by
  have h := parts_append "" p
  rwa [String.empty_append, parts_empty, List.nil_append] at h

theorem parts_of_plain {s : String} (h : Plain s) : parts s = [s] := by
  obtain ⟨hne, hpoint, -, hslash⟩ := h
  rw [parts, pieces_eq_singleton hslash]
  simp [hne, hpoint]

/-- Texts that are parts are found again in the path that they are joined to. -/
theorem parts_intercalate {l : List String}
    (h : ∀ s ∈ l, s ≠ "" ∧ s ≠ "." ∧ '/' ∉ s.toList) : parts ("/".intercalate l) = l := by
  induction l with
  | nil => simp
  | cons s rest ih =>
    obtain ⟨hne, hpoint, hslash⟩ := h s List.mem_cons_self
    have hs : parts s = [s] := by
      rw [parts, pieces_eq_singleton hslash]
      simp [hne, hpoint]
    rcases rest with - | ⟨s', rest⟩
    · simpa using hs
    · rw [String.intercalate_cons_cons, parts_append, hs,
        ih fun s hs => h s (List.mem_cons_of_mem _ hs), List.singleton_append]

theorem parts_render (pl : Place) : parts (render pl) = pl.reverse.map (·.1) := by
  rw [render, parts_slash]
  refine parts_intercalate fun s hs => ?_
  obtain ⟨n, -, rfl⟩ := List.mem_map.mp hs
  exact ⟨n.2.1, n.2.2.1, n.2.2.2.2⟩

theorem eq_of_parts_render {pl q : Place} (h : parts (render pl) = parts (render q)) : pl = q := by
  rw [parts_render, parts_render] at h
  exact List.reverse_injective (List.map_injective_iff.mpr Subtype.val_injective h)

theorem render_injective : Function.Injective render :=
  fun _ _ h => eq_of_parts_render (congrArg parts h)

theorem render_singleton (n : Name) : render [n] = "/" ++ n.1 := by
  simp [render]

theorem render_cons_cons (n m : Name) (rest : Place) :
    render (n :: m :: rest) = render (m :: rest) ++ "/" ++ n.1 := by
  rw [render, List.reverse_cons, List.map_append,
    String.intercalate_append_of_ne_nil (by simp) (by simp), render, List.map_singleton,
    String.intercalate_singleton]
  simp only [String.append_assoc]

/-- A path ends with the last name of its place. -/
theorem exists_render_eq_append (n : Name) (rest : Place) :
    ∃ start, render (n :: rest) = start ++ n.1 := by
  rcases rest with - | ⟨m, rest⟩
  · exact ⟨_, render_singleton n⟩
  · exact ⟨_, render_cons_cons n m rest⟩

/-! ## Absolute paths -/

theorem isAbsolute_iff {p : String} : isAbsolute p = true ↔ ∃ q, p = "/" ++ q := by
  unfold isAbsolute
  rw [String.startsWith_string_iff, List.prefix_iff_exists_append_eq]
  constructor
  · rintro ⟨cs, h⟩
    exact ⟨String.ofList cs, String.toList_injective (by simpa using h.symm)⟩
  · rintro ⟨q, rfl⟩
    exact ⟨q.toList, by simp⟩

theorem isAbsolute_slash (p : String) : isAbsolute ("/" ++ p) = true := isAbsolute_iff.mpr ⟨p, rfl⟩

theorem isAbsolute_append {p : String} (h : p ≠ "") (q : String) :
    isAbsolute (p ++ q) = isAbsolute p := by
  rw [Bool.eq_iff_iff]
  unfold isAbsolute
  rw [String.startsWith_string_iff, String.startsWith_string_iff, String.toList_append]
  obtain ⟨c, cs, hp⟩ := List.exists_cons_of_ne_nil fun he => h (String.toList_eq_nil_iff.mp he)
  simp [hp]

theorem isAbsolute_eq_false {s : String} (h : '/' ∉ s.toList) : isAbsolute s = false := by
  rw [Bool.eq_false_iff]
  intro habs
  obtain ⟨q, rfl⟩ := isAbsolute_iff.mp habs
  exact h (by simp)

@[simp] theorem isAbsolute_render (pl : Place) : isAbsolute (render pl) = true := isAbsolute_slash _

/-! ## The place of a path -/

/-- Only the path of the root ends with a slash. -/
theorem not_endsWith_render (n : Name) (rest : Place) :
    (render (n :: rest)).endsWith "/" = false := by
  rw [Bool.eq_false_iff, ne_eq, ← String.endsWith_toSlice, String.Slice.endsWith_string_iff,
    String.copy_toSlice]
  intro hslash
  obtain ⟨start, hrender⟩ := exists_render_eq_append n rest
  have hname : n.1.toList <:+ (render (n :: rest)).toList := by
    rw [hrender, String.toList_append]
    exact List.suffix_append _ _
  rcases List.suffix_or_suffix_of_suffix hslash hname with h | h
  · exact n.2.2.2.2 (h.subset (by decide))
  · rcases List.suffix_cons_iff.mp h with h | h
    · exact n.2.2.2.2 (by rw [h]; decide)
    · exact n.2.1 (String.toList_eq_nil_iff.mp (List.suffix_nil.mp h))

/-- A name in a directory is joined to the path of the directory. -/
theorem join_render (pl : Place) (n : Name) : join (render pl) n = render (n :: pl) := by
  rw [join, isAbsolute_eq_false n.2.2.2.2, if_neg (by decide)]
  rcases pl with - | ⟨m, rest⟩
  · have hend : (render []).endsWith "/" = true := by
      rw [← String.endsWith_toSlice, String.Slice.endsWith_string_iff, String.copy_toSlice]
      exact List.suffix_rfl
    rw [hend, Bool.or_true, if_pos rfl, render_singleton]
    rfl
  · obtain ⟨start, hrender⟩ := exists_render_eq_append m rest
    have hne : (render (m :: rest)).isEmpty = false := by
      rw [Bool.eq_false_iff, ne_eq, String.isEmpty_iff, hrender, String.append_eq_empty_iff]
      exact fun h => m.2.1 h.2
    rw [hne, not_endsWith_render, render_cons_cons]
    rfl

theorem walk_append (pl : Place) (l m : List String) : walk pl (l ++ m) = walk (walk pl l) m := by
  induction l generalizing pl with
  | nil => rfl
  | cons part rest ih =>
    simp only [List.cons_append, walk]
    split_ifs <;> exact ih _

theorem walk_names (pl q : Place) : walk pl (q.reverse.map (·.1)) = q ++ pl := by
  induction q generalizing pl with
  | nil => rfl
  | cons n rest ih =>
    rw [List.reverse_cons, List.map_append, walk_append, ih]
    simp [walk, n.2.2.2.1, n.2]

theorem follow_eq_walk {l : List String} (h : ∀ s ∈ l, s ≠ "" ∧ s ≠ "." ∧ '/' ∉ s.toList)
    (pl : Place) : follow (pl.map (·.1)) l = (walk pl l).map (·.1) := by
  induction l generalizing pl with
  | nil => rfl
  | cons part rest ih =>
    have hrest := fun s hs => h s (List.mem_cons_of_mem part hs)
    obtain ⟨hne, hpoint, hslash⟩ := h part List.mem_cons_self
    unfold walk
    split_ifs with hup hplain
    · subst hup
      rw [follow, ← List.map_tail, ih hrest]
    · rw [follow, ← ih hrest]
      · rfl
      · exact hup
    · exact absurd ⟨hne, hpoint, hup, hslash⟩ hplain

theorem absolute_eq_render (cwd p : String) : absolute cwd p = render (place cwd p) := by
  have hstart : (if isAbsolute p then [] else follow [] (parts cwd)) =
      (if isAbsolute p then [] else walk [] (parts cwd) : Place).map (·.1) := by
    split_ifs
    · rfl
    · exact follow_eq_walk (fun s => mem_parts) []
  rw [absolute, hstart, render, place, List.map_reverse]
  exact congrArg _ (congrArg _ (congrArg _ (follow_eq_walk (fun s => mem_parts) _)))

@[simp] theorem place_render (cwd : String) (pl : Place) : place cwd (render pl) = pl := by
  rw [place, isAbsolute_render, if_pos rfl, parts_render, walk_names, List.append_nil]

/-- Two paths of the same parts denote the same place if they start at the same place. -/
theorem place_congr {p q : String} (hparts : parts p = parts q)
    (habs : isAbsolute p = isAbsolute q) (cwd : String) : place cwd p = place cwd q := by
  unfold place
  rw [hparts, habs]

/-- A path that is not absolute goes on where the path that it is joined to ends. -/
theorem join_of_relative (base : String) {s : String} (h : isAbsolute s = false) :
    parts (join base s) = parts base ++ parts s ∧ isAbsolute (join base s) = isAbsolute base := by
  unfold join
  rw [h, if_neg (by decide)]
  by_cases hempty : base = ""
  · subst hempty
    rw [if_pos (by simp), String.empty_append, h]
    exact ⟨rfl, by decide⟩
  · split_ifs with hend
    · simp only [String.isEmpty_iff, hempty, Bool.or_eq_true, false_or] at hend
      obtain ⟨start, rfl⟩ : ∃ start, base = start ++ "/" := by
        rw [← String.endsWith_toSlice, String.Slice.endsWith_string_iff,
          String.copy_toSlice] at hend
        obtain ⟨cs, hcs⟩ := hend
        exact ⟨String.ofList cs, String.toList_injective (by simp [← hcs])⟩
      refine ⟨?_, isAbsolute_append hempty s⟩
      have hbase := parts_append start ""
      rw [String.append_empty, parts_empty, List.append_nil] at hbase
      rw [parts_append, hbase]
    · refine ⟨parts_append base s, ?_⟩
      rw [String.append_assoc, isAbsolute_append hempty]

theorem join_of_absolute (base : String) {s : String} (h : isAbsolute s = true) :
    join base s = s := by
  rw [join, if_pos h]

theorem join_of_plain (base : String) {name : String} (h : Plain name) :
    parts (join base name) = parts base ++ [name] ∧
      isAbsolute (join base name) = isAbsolute base := by
  rw [← parts_of_plain h]
  exact join_of_relative base (isAbsolute_eq_false h.2.2.2)

theorem place_join_of_relative (cwd base : String) {s : String} (h : isAbsolute s = false) :
    place cwd (join base s) = walk (place cwd base) (parts s) := by
  obtain ⟨hparts, habs⟩ := join_of_relative base h
  rw [place, hparts, habs, walk_append, place]

@[simp] theorem place_join (cwd base : String) (name : Name) :
    place cwd (join base name) = name :: place cwd base := by
  rw [place_join_of_relative cwd base (isAbsolute_eq_false name.2.2.2.2), parts_of_plain name.2]
  simp [walk, name.2.2.2.1, name.2]

/-- A path without points leads down from every place. -/
theorem exists_parts_eq {s : String} (h : '.' ∉ s.toList) :
    ∃ down : Place, parts s = down.reverse.map (·.1) := by
  have hplain : ∀ part ∈ parts s, Plain part := by
    intro part hpart
    obtain ⟨hne, hpoint, hslash⟩ := mem_parts hpart
    refine ⟨hne, hpoint, ?_, hslash⟩
    rintro rfl
    exact h (mem_of_mem_pieces (List.mem_filter.mp hpart).1 (by decide))
  refine ⟨((parts s).attach.map fun part => ⟨part.1, hplain _ part.2⟩).reverse, ?_⟩
  simp

theorem parts_parent (p : String) : parts (parent p) = (parts p).dropLast := by
  have hclean : ∀ s ∈ (parts p).dropLast, s ≠ "" ∧ s ≠ "." ∧ '/' ∉ s.toList :=
    fun s hs => mem_parts (List.mem_of_mem_dropLast hs)
  unfold parent
  split_ifs
  · rw [parts_slash, parts_intercalate hclean]
  · exact parts_intercalate hclean

theorem isAbsolute_parent (p : String) : isAbsolute (parent p) = isAbsolute p := by
  unfold parent
  split_ifs with habs
  · rw [habs, isAbsolute_slash]
  · rw [Bool.eq_false_iff.mpr habs]
    rcases hparts : (parts p).dropLast with - | ⟨s, rest⟩
    · rw [String.intercalate_nil]
      decide
    · obtain ⟨hne, -, hslash⟩ :=
        mem_parts (List.mem_of_mem_dropLast (hparts ▸ List.mem_cons_self :))
      rcases rest with - | ⟨s', rest⟩
      · rw [String.intercalate_singleton, isAbsolute_eq_false hslash]
      · rw [String.intercalate_cons_cons, String.append_assoc, isAbsolute_append hne,
          isAbsolute_eq_false hslash]

@[simp] theorem place_parent_join (cwd base : String) (name : Name) :
    place cwd (parent (join base name)) = place cwd base := by
  obtain ⟨hparts, habs⟩ := join_of_plain base name.2
  refine place_congr ?_ ?_ cwd
  · rw [parts_parent, hparts, List.dropLast_concat]
  · rw [isAbsolute_parent, habs]

/-- A name beside a file leads to the same directory. -/
@[simp] theorem place_withFileName (cwd base : String) (name other : Name) :
    place cwd (withFileName (join base name) other) = other :: place cwd base := by
  rw [withFileName, place_join, place_parent_join]

@[simp] theorem fileName?_join (base : String) (name : Name) :
    fileName? (join base name) = some name.1 := by
  unfold fileName?
  rw [(join_of_plain base name.2).1, List.getLast?_append_of_ne_nil _ (List.cons_ne_nil _ _),
    List.getLast?_singleton]
  split
  · rename_i h
    exact absurd (Option.some.inj h) name.2.2.2.1
  · rfl

/-- What follows the last point of a name. -/
theorem extension?_join {base stem ext : String} (h : Plain (stem ++ "." ++ ext))
    (hstem : stem ≠ "") (hext : '.' ∉ ext.toList) : extension? (join base (stem ++ "." ++ ext)) = some ext := by
  have hpieces : pieces '.' (stem ++ "." ++ ext) = pieces '.' stem ++ [ext] := by
    rw [show ("." : String) = String.singleton '.' from rfl, pieces_append,
      pieces_eq_singleton hext]
  have hname := fileName?_join base ⟨_, h⟩
  rw [extension?, hname, Option.bind_eq_bind, Option.bind_some, hpieces]
  rcases hsplit : pieces '.' stem with - | ⟨first, - | ⟨second, rest⟩⟩
  · exact absurd hsplit (pieces_ne_nil '.' stem)
  · have hfirst : first ≠ "" := by
      rintro rfl
      exact hstem (pieces_eq_empty.mp hsplit)
    simp [hfirst]
  · have hlast : (second :: rest ++ [ext]).getLast? = some ext := List.getLast?_concat
    simpa using hlast

theorem parent_render (pl : Place) : parent (render pl) = render pl.tail := by
  unfold parent
  rw [isAbsolute_render, if_pos rfl, parts_render, render, ← List.map_dropLast,
    List.dropLast_reverse]

end Workflow.Path
