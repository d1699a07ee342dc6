import StencilDesk.Proofs.Bundle.Tree

/-!
# Paths as lists of segments

A path is spelled by its segments, and the folders above it by the first ones of these. Paths are
listed by their segments: where two of them part, the one that goes on comes before the one that
ends, and otherwise the names decide.
-/

namespace StencilDesk
namespace Path

def IsSegment (name : String) : Prop :=
  name ≠ "" ∧ '/' ∉ name.toList

theorem isSegment_of_mem_segments {path name : String} (h : name ∈ segments path) :
    IsSegment name := by
  rcases List.mem_map.mp h with ⟨piece, hmem, hname⟩
  rcases List.mem_filter.mp hmem with ⟨hpiece, hsome⟩
  rw [← hname]
  constructor
  · intro hempty
    have hnone : piece = [] := by
      rw [← String.toList_ofList (l := piece), hempty]
      rfl
    rw [hnone] at hsome
    cases hsome
  · rw [String.toList_ofList]
    exact Text.separator_not_mem_splitOn hpiece

/-!
## Spelling
-/

theorem descend_append (parent : String) (names others : List String) :
    descend parent (names ++ others) = descend (descend parent names) others :=
  List.foldl_append

theorem segments_slash (path rest : String) :
    segments (path ++ "/" ++ rest) = segments path ++ segments rest := by
  have hpieces : pieces (path ++ "/" ++ rest) = pieces path ++ pieces rest := by
    rw [pieces, String.toList_append, String.toList_append, List.append_assoc]
    exact Text.splitOn_append_separator '/' path.toList rest.toList
  rw [segments, hpieces, List.filter_append, List.map_append]
  rfl

theorem segments_of_isSegment {name : String} (h : IsSegment name) : segments name = [name] := by
  have hsome : name.toList ≠ [] := by
    intro hnone
    exact h.1 (String.toList_inj.mp hnone)
  rw [segments, pieces, Text.splitOn_of_not_mem h.2, List.filter_cons_of_pos (by simpa using hsome)]
  simp

theorem segments_descend {names : List String} (h : ∀ name ∈ names, IsSegment name) :
    segments (descend "" names) = names := by
  induction names using List.reverseRecOn with
  | nil => rfl
  | append_singleton names name ih =>
      rw [List.forall_mem_append] at h
      have hlast : descend "" (names ++ [name]) = descend "" names ++ "/" ++ name :=
        descend_append "" names [name]
      rw [hlast, segments_slash, ih h.1,
        segments_of_isSegment (h.2 name (List.mem_singleton_self name))]

theorem name_slash {path name : String} (h : '/' ∉ name.toList) :
    Path.name (path ++ "/" ++ name) = name := by
  have htext : (path ++ "/" ++ name).toList = path.toList ++ '/' :: name.toList := by
    rw [String.toList_append, String.toList_append, List.append_assoc]
    rfl
  have hall : ∀ c ∈ name.toList.reverse, (c != '/') = true := by
    intro c hmem
    rw [bne_iff_ne]
    rintro rfl
    exact h (List.mem_reverse.mp hmem)
  rw [Path.name, htext, List.reverse_append, List.reverse_cons, List.append_assoc,
    List.takeWhile_append_of_pos hall]
  simp

theorem name_descend {parent name : String} {names : List String} (h : IsSegment name) :
    Path.name (descend parent (names ++ [name])) = name := by
  rw [descend_append]
  exact name_slash h.2

theorem getLast?_segments {path : String} (h : check path = .ok ()) (hroot : path ≠ root) :
    (segments path).getLast? = some (Path.name path) := by
  rcases descend_segments h hroot with ⟨hsome, hspelled⟩
  rcases List.eq_nil_or_concat (segments path) with hnone | ⟨names, name, hsegments⟩
  · exact absurd hnone hsome
  · have hmem : name ∈ segments path := by
      rw [hsegments]
      simp
    have hname := isSegment_of_mem_segments hmem
    rw [hsegments] at hspelled ⊢
    rw [List.concat_eq_append] at hspelled ⊢
    rw [← hspelled, name_descend hname, List.getLast?_concat]

/-!
## The folders above a path
-/

theorem isAbove_descend {parent : String} {names rest : List String} (hrest : rest ≠ []) :
    IsAbove (descend parent names) (descend parent (names ++ rest)) := by
  cases rest with
  | nil => exact absurd rfl hrest
  | cons name more =>
      refine ⟨name.toList ++ more.flatMap fun name => '/' :: name.toList, ?_⟩
      simp [toList_descend]

theorem descend_ne_empty {parent : String} {names : List String} (h : names ≠ []) :
    descend parent names ≠ "" := by
  intro hempty
  have htext := toList_descend parent names
  rw [hempty] at htext
  cases names with
  | nil => exact h rfl
  | cons name rest => simp at htext

/-- What lies above a well formed path is well formed, and spelled by its first segments. -/
theorem segments_of_isAbove {above path : String} (h : check path = .ok ())
    (habove : IsAbove above path) (hempty : above ≠ "") :
    check above = .ok () ∧ above ≠ root ∧
      ∃ rest, rest ≠ [] ∧ segments path = segments above ++ rest := by
  rcases habove with ⟨behind, hbehind⟩
  rw [List.append_assoc, List.singleton_append] at hbehind
  cases habove : above.toList with
  | nil => exact absurd (String.toList_inj.mp habove) hempty
  | cons first inner =>
      rw [habove, List.cons_append] at hbehind
      have hroot : path ≠ root := by
        rintro rfl
        have hlength := congrArg List.length hbehind
        simp [root] at hlength
      rcases (check_eq_ok_iff.mp h).resolve_left hroot with ⟨rest, hpath, hproper⟩
      rw [hpath, List.cons.injEq] at hbehind
      rcases hbehind with ⟨hfirst, hrest⟩
      rw [hfirst] at habove
      have hsplit : Text.splitOn '/' rest = Text.splitOn '/' inner ++ Text.splitOn '/' behind := by
        rw [← hrest, Text.splitOn_append_separator]
      have hinner : ∀ piece ∈ Text.splitOn '/' inner, ProperPiece piece := by
        intro piece hmem
        apply hproper
        rw [hsplit]
        exact List.mem_append_left _ hmem
      refine ⟨check_eq_ok_iff.mpr (.inr ⟨inner, habove, hinner⟩), ?_,
        (Text.splitOn '/' behind).map String.ofList, ?_, ?_⟩
      · rintro rfl
        have hroot : ['/'] = '/' :: inner := habove
        rw [← (List.cons.inj hroot).2] at hinner
        exact (hinner [] (List.mem_singleton_self [])).1 rfl
      · simpa using Text.splitOn_ne_nil '/' behind
      · rw [segments_of_proper hpath hproper, segments_of_proper habove hinner, hsplit,
          List.map_append]

/-!
## The order of paths
-/

def listedBy : List String → List String → Bool
  | [], rest => rest.isEmpty
  | _ :: _, [] => true
  | name :: rest, other :: others =>
      if name = other then listedBy rest others
      else if rest.isEmpty = others.isEmpty then name ≤ other
      else others.isEmpty

def le (path other : String) : Bool :=
  listedBy (segments path) (segments other)

theorem listedBy_nil (names : List String) : listedBy names [] = true := by
  cases names <;> rfl

theorem isEmpty_of_listedBy {names others : List String} (h : listedBy names others = true)
    (hnone : names.isEmpty = true) : others.isEmpty = true := by
  rw [List.isEmpty_iff.mp hnone] at h
  exact h

theorem listedBy_total (names others : List String) :
    (listedBy names others || listedBy others names) = true := by
  induction names generalizing others with
  | nil => cases others <;> rfl
  | cons name rest ih =>
      cases others with
      | nil => rfl
      | cons other more =>
          have htotal := String.le_total name other
          have hrest := ih more
          simp only [listedBy]
          grind

theorem listedBy_trans {names others more : List String} (h : listedBy names others = true)
    (hmore : listedBy others more = true) : listedBy names more = true := by
  induction names generalizing others more with
  | nil =>
      cases others with
      | nil => exact hmore
      | cons other rest => cases h
  | cons name rest ih =>
      cases more with
      | nil => rfl
      | cons last lasts =>
          cases others with
          | nil => cases hmore
          | cons other middle =>
              have hstep := @ih middle lasts
              have hle := @String.le_trans name other last
              have hanti := @String.le_antisymm name other
              have hends : lasts.isEmpty = true → listedBy rest lasts = true := by
                intro hnone
                rw [List.isEmpty_iff.mp hnone]
                exact listedBy_nil rest
              have hfirst := @isEmpty_of_listedBy rest middle
              have hsecond := @isEmpty_of_listedBy middle lasts
              simp only [listedBy] at h hmore ⊢
              grind

theorem listedBy_antisymm {names others : List String} (h : listedBy names others = true)
    (hback : listedBy others names = true) : names = others := by
  induction names generalizing others with
  | nil => exact (List.isEmpty_iff.mp h).symm
  | cons name rest ih =>
      cases others with
      | nil => cases hback
      | cons other more =>
          have hstep := @ih more
          have hanti := @String.le_antisymm name other
          simp only [listedBy] at h hback
          grind

end Path
end StencilDesk
