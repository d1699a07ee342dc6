import StencilDesk.History.Store
import StencilDesk.Proofs.Directory
import StencilDesk.Proofs.History.Snapshot

/-!
# Serials

The next serial is new, and the serials that are listed are those of the files of versions, each
once and in ascending order.
-/

namespace StencilDesk
namespace Serial

theorem eq_of_text_eq {a b : Serial} (h : a.text = b.text) : a = b := by
  cases a
  cases b
  cases h
  rfl

/-!
## The next serial
-/

theorem date_ofDate (date : Date) (letter : Char) (upper : letter.isUpper = true) :
    (ofDate date letter upper).date = datePrefix date := by
  unfold Serial.date ofDate
  rw [String.toList_ofList, List.take_append_of_le_length (by simp),
    List.take_of_length_le (by simp)]

theorem letter_ofDate (date : Date) (letter : Char) (upper : letter.isUpper = true) :
    (ofDate date letter upper).letter = letter := by
  unfold Serial.letter ofDate
  rw [String.toList_ofList, List.drop_append_of_le_length (by simp),
    List.drop_of_length_le (by simp)]
  rfl

theorem toNat_le_of_isUpper {c : Char} (h : c.isUpper = true) : c.toNat ≤ 90 := by
  have hbounds : 'A'.val ≤ c.val ∧ c.val ≤ 'Z'.val := of_decide_eq_true h
  exact UInt32.le_iff_toNat_le.mp hbounds.2

theorem toNat_letterAfter {c : Char} (h : c.isUpper = true) :
    (letterAfter c).toNat = c.toNat + 1 := by
  have hle := toNat_le_of_isUpper h
  have hall : ∀ n < 92, (Char.ofNat n).toNat = n := by decide
  exact hall (c.toNat + 1) (by omega)

def laterOf (latest : Option Serial) (serial : Serial) : Option Serial :=
  match latest with
  | none => some serial
  | some other => if other.letter < serial.letter then some serial else some other

theorem latestLetter?_eq (serials : List Serial) :
    latestLetter? serials = serials.foldl laterOf none := rfl

theorem foldl_laterOf_some (serials : List Serial) (first : Serial) :
    ∃ latest, serials.foldl laterOf (some first) = some latest ∧
      first.letter ≤ latest.letter ∧ ∀ serial ∈ serials, serial.letter ≤ latest.letter := by
  induction serials generalizing first with
  | nil =>
      refine ⟨first, rfl, Char.le_refl _, ?_⟩
      intro serial hmem
      cases hmem
  | cons serial rest ih =>
      rw [List.foldl_cons, laterOf]
      by_cases hlater : first.letter < serial.letter
      · rw [if_pos hlater]
        rcases ih serial with ⟨latest, hlatest, hserial, hrest⟩
        refine ⟨latest, hlatest, Char.le_trans (Char.not_lt.mp (Char.lt_asymm hlater)) hserial, ?_⟩
        intro other hmem
        rcases List.mem_cons.mp hmem with hfirst | hmem
        · rw [hfirst]
          exact hserial
        · exact hrest other hmem
      · rw [if_neg hlater]
        rcases ih first with ⟨latest, hlatest, hfirst, hrest⟩
        refine ⟨latest, hlatest, hfirst, ?_⟩
        intro other hmem
        rcases List.mem_cons.mp hmem with hserial | hmem
        · rw [hserial]
          exact Char.le_trans (Char.not_lt.mp hlater) hfirst
        · exact hrest other hmem

theorem latestLetter?_eq_none_iff {serials : List Serial} :
    latestLetter? serials = none ↔ serials = [] := by
  rw [latestLetter?_eq]
  cases serials with
  | nil => simp
  | cons first rest =>
      rcases foldl_laterOf_some rest first with ⟨latest, hlatest, _⟩
      rw [List.foldl_cons, laterOf, hlatest]
      simp

theorem letter_le_of_latestLetter? {serials : List Serial} {latest serial : Serial}
    (h : latestLetter? serials = some latest) (hmem : serial ∈ serials) :
    serial.letter ≤ latest.letter := by
  rw [latestLetter?_eq] at h
  cases serials with
  | nil => cases hmem
  | cons first rest =>
      rcases foldl_laterOf_some rest first with ⟨last, hlast, hfirst, hrest⟩
      rw [List.foldl_cons, laterOf, hlast, Option.some.injEq] at h
      rw [← h]
      rcases List.mem_cons.mp hmem with hsame | hmem
      · rw [hsame]
        exact hfirst
      · exact hrest serial hmem

theorem not_mem_of_next {date : Date} {existing : List Serial} {serial : Serial}
    (h : next date existing = .ok serial) : serial ∉ existing := by
  intro hmem
  unfold next at h
  split at h
  · rename_i hnone
    cases h
    rw [latestLetter?_eq_none_iff, List.filter_eq_nil_iff] at hnone
    apply hnone _ hmem
    rw [date_ofDate]
    exact beq_self_eq_true _
  · rename_i latest hlatest
    split at h
    · cases h
    · cases h
      have hsameDate : ofDate date (letterAfter latest.letter) (isUpper_letterAfter
          latest.isUpper_letter ‹_›) ∈
          existing.filter fun serial => serial.date == datePrefix date := by
        rw [List.mem_filter, date_ofDate]
        exact ⟨hmem, beq_self_eq_true _⟩
      have hle := letter_le_of_latestLetter? hlatest hsameDate
      rw [letter_ofDate] at hle
      have hnat : (letterAfter latest.letter).toNat ≤ latest.letter.toNat :=
        UInt32.le_iff_toNat_le.mp hle
      rw [toNat_letterAfter latest.isUpper_letter] at hnat
      omega

theorem eq_exhausted_of_next {date : Date} {existing : List Serial} {fault : SerialFault}
    (h : next date existing = .error fault) :
    fault = .exhausted (String.ofList (datePrefix date)) := by
  unfold next at h
  split at h
  · cases h
  · split at h
    · cases h
      rfl
    · cases h

/-!
## The text of a serial
-/

theorem isAlphanum_of_mem {serial : Serial} {c : Char} (h : c ∈ serial.text.toList) :
    c.isDigit = true ∨ c.isUpper = true := by
  have hwell := serial.wellFormed
  simp only [isSerialText, Bool.and_eq_true, List.all_eq_true] at hwell
  rw [← List.take_append_drop 6 serial.text.toList] at h
  rcases List.mem_append.mp h with hdate | hletter
  · exact .inl (hwell.1.2 c hdate)
  · exact .inr (hwell.2 c hletter)

theorem isBlank_of_mem {serial : Serial} {c : Char} (h : c ∈ serial.text.toList) :
    Text.isBlank c = false := by
  have hall : ∀ n < 91, 48 ≤ n → Text.isBlank (Char.ofNat n) = false := by decide
  have hbounds : 48 ≤ c.toNat ∧ c.toNat ≤ 90 := by
    rcases isAlphanum_of_mem h with hdigit | hupper
    · have hrange : '0'.val ≤ c.val ∧ c.val ≤ '9'.val := by
        simpa [Char.isDigit] using hdigit
      have hlow := UInt32.le_iff_toNat_le.mp hrange.1
      have hhigh := UInt32.le_iff_toNat_le.mp hrange.2
      have hzero : '0'.val.toNat = 48 := rfl
      have hnine : '9'.val.toNat = 57 := rfl
      have hval : c.val.toNat = c.toNat := rfl
      omega
    · have hrange : 'A'.val ≤ c.val ∧ c.val ≤ 'Z'.val := of_decide_eq_true hupper
      have hlow := UInt32.le_iff_toNat_le.mp hrange.1
      have hhigh := UInt32.le_iff_toNat_le.mp hrange.2
      have ha : 'A'.val.toNat = 65 := rfl
      have hz : 'Z'.val.toNat = 90 := rfl
      have hval : c.val.toNat = c.toNat := rfl
      omega
  have hread := hall c.toNat (by omega) hbounds.1
  rw [Char.ofNat_toNat] at hread
  exact hread

theorem trim_of_not_blank {text : List Char} (h : ∀ c ∈ text, Text.isBlank c = false) :
    Text.trim text = text := by
  have hstart : Text.trimStart text = text := by
    cases text with
    | nil => rfl
    | cons c rest => exact Text.trimStart_cons_mark rest (h c List.mem_cons_self)
  unfold Text.trim
  rw [hstart]
  clear hstart
  induction text with
  | nil => rfl
  | cons c rest ih =>
      unfold Text.trimEnd
      rw [ih fun d hmem => h d (List.mem_cons_of_mem _ hmem)]
      cases rest with
      | nil => simp [h c List.mem_cons_self]
      | cons d rest => rfl

theorem trim_text (serial : Serial) : Text.trim serial.text.toList = serial.text.toList :=
  trim_of_not_blank fun _ => isBlank_of_mem

theorem text_ne_nil (serial : Serial) : serial.text.toList ≠ [] := by
  intro hempty
  have hwell := serial.wellFormed
  rw [hempty] at hwell
  cases hwell

theorem le_iff {a b : Serial} : le a b = true ↔ a.text ≤ b.text := by
  simp [le]

theorem le_total (a b : Serial) : (le a b || le b a) = true := by
  rw [Bool.or_eq_true, le_iff, le_iff]
  exact String.le_total a.text b.text

theorem le_trans (a b c : Serial) (h : le a b = true) (hnext : le b c = true) :
    le a c = true := by
  rw [le_iff] at h hnext ⊢
  exact String.le_trans h hnext

theorem text_lt_of_le {a b : Serial} (h : le a b = true) (hne : a ≠ b) : a.text < b.text := by
  rw [le_iff] at h
  rw [← String.not_le]
  intro hback
  exact hne (eq_of_text_eq (String.le_antisymm h hback))

end Serial

namespace Store

open Directory

/-!
## The serials of a folder
-/

theorem serialOfName?_eq_some_iff {name : String} {serial : Serial} :
    serialOfName? name = some serial ↔ name = versionName serial := by
  unfold serialOfName? versionName
  constructor
  · intro h
    dsimp only at h
    split at h
    · rename_i hsuffix
      rcases List.isSuffixOf_iff_suffix.mp hsuffix with ⟨text, htext⟩
      rw [← htext, List.length_append, Nat.add_sub_cancel, List.take_left] at h
      unfold Serial.ofText at h
      split at h
      · cases h
        rw [String.toList_ofList, htext, String.ofList_toList]
      · cases h
    · cases h
  · intro h
    have hsuffix : versionSuffix.isSuffixOf (serial.text.toList ++ versionSuffix) = true := by
      rw [List.isSuffixOf_iff_suffix]
      exact List.suffix_append _ _
    rw [h, String.toList_ofList]
    simp only [hsuffix, if_true, List.length_append, Nat.add_sub_cancel, List.take_left,
      String.ofList_toList, Serial.ofText_text]
    rfl

theorem isFile_of_item? {directory : Directory} {location : Location} {content : FileContent}
    (h : directory.item? location = some (.file content)) : directory.isFile location = true := by
  unfold isFile content?
  rw [h]
  rfl

theorem item?_ne_none_of_isFile {directory : Directory} {location : Location}
    (h : directory.isFile location = true) : directory.item? location ≠ none := by
  intro hnone
  rw [isFile_eq_false_iff.mpr (.inl hnone)] at h
  cases h

theorem mem_serials_iff {directory : Directory} {folder : Location} {serial : Serial} :
    serial ∈ serials directory folder ↔ directory.isFile (versionFile folder serial) = true := by
  unfold serials Serial.sorted
  rw [List.mem_mergeSort, List.mem_filterMap]
  constructor
  · intro ⟨name, hmem, hname⟩
    rw [serialOfName?_eq_some_iff.mp hname] at hmem
    exact (List.mem_filter.mp hmem).2
  · intro h
    refine ⟨versionName serial, ?_, serialOfName?_eq_some_iff.mpr rfl⟩
    rw [List.mem_filter]
    exact ⟨mem_names_iff.mpr (item?_ne_none_of_isFile h), h⟩

theorem nodup_serials {directory : Directory} {folder : Location}
    (h : (directory.under folder).Distinct) : (serials directory folder).Nodup := by
  unfold serials Serial.sorted
  rw [(List.mergeSort_perm _ _).nodup_iff]
  apply List.Nodup.filterMap
  · intro name other serial hname hother
    rw [serialOfName?_eq_some_iff.mp hname, serialOfName?_eq_some_iff.mp hother]
  · apply List.Nodup.filter
    unfold versionsFolder
    rw [← names_under directory folder [versionsName]]
    exact h.nodup_names _

theorem pairwise_serials {directory : Directory} {folder : Location}
    (h : (directory.under folder).Distinct) :
    (serials directory folder).Pairwise fun a b => a.text < b.text := by
  have hsorted : (serials directory folder).Pairwise fun a b => Serial.le a b = true :=
    List.pairwise_mergeSort Serial.le_trans Serial.le_total _
  exact (hsorted.and (nodup_serials h)).imp fun hboth => Serial.text_lt_of_le hboth.1 hboth.2

end Store
end StencilDesk
