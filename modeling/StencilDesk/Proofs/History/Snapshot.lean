import StencilDesk.History.Snapshot
import StencilDesk.Proofs.Json
import StencilDesk.Proofs.Time

/-!
# Stored versions are read back

A version is read back from the text in which it is stored, with its files, their names and kinds
and its time.
-/

namespace StencilDesk

theorem FileKind.ofText?_text (kind : FileKind) : ofText? kind.text = some kind := by
  cases kind <;> rfl

namespace File

theorem ofJson?_toJson (file : File) : ofJson? file.toJson = some file := by
  cases file with
  | mk path name content kind editable =>
      simp [toJson, ofJson?, Json.record?, Json.field?, Json.text?, Json.bool?, kindOfJson?,
        FileKind.ofText?_text]

theorem mapM_ofJson?_toJson (files : List File) :
    files.mapM (ofJson? ∘ toJson) = some files := by
  induction files with
  | nil => rfl
  | cons file rest ih => simp [List.mapM_cons, ofJson?_toJson, ih]

theorem numberFree_toJson (file : File) : file.toJson.NumberFree := by
  apply Json.NumberFree.object
  intro field hmem
  simp only [List.mem_cons, List.not_mem_nil, or_false] at hmem
  rcases hmem with rfl | rfl | rfl | rfl | rfl
  · exact .string _
  · exact .string _
  · exact .string _
  · exact .string _
  · exact .bool _

end File

theorem Serial.ofText_text (serial : Serial) : Serial.ofText serial.text = .ok serial := by
  unfold Serial.ofText
  rw [dif_pos serial.wellFormed]

theorem Json.numberFree_ofOption (text : Option String) : (Json.ofOption text).NumberFree := by
  cases text with
  | none => exact .null
  | some text => exact .string text

theorem Json.optionalText?_ofOption (text : Option String) :
    Json.optionalText? (Json.ofOption text) = some text := by
  cases text <;> rfl

namespace Snapshot

theorem numberFree_toJson {version : Snapshot} {value : Json} (h : version.toJson? = some value) :
    value.NumberFree := by
  unfold toJson? at h
  cases htime : version.createdAt.text? with
  | none =>
      rw [htime] at h
      cases h
  | some time =>
      rw [htime] at h
      cases h
      apply Json.NumberFree.object
      intro field hmem
      simp only [List.mem_cons, List.not_mem_nil, or_false] at hmem
      rcases hmem with rfl | rfl | rfl | rfl | rfl | rfl
      · exact .string _
      · exact .string _
      · exact .string _
      · exact .bool _
      · exact Json.numberFree_ofOption _
      · apply Json.NumberFree.array
        intro item hitem
        rcases List.mem_map.mp hitem with ⟨file, _, hfile⟩
        rw [← hfile]
        exact File.numberFree_toJson file

theorem ofJson?_toJson? {version : Snapshot} (htime : version.createdAt.Expressible)
    {value : Json} (h : version.toJson? = some value) : ofJson? value = some version := by
  unfold toJson? at h
  rcases Timestamp.exists_text htime.writable with ⟨time, hwritten⟩
  have hread := Timestamp.ofText?_of_text? htime hwritten
  rw [hwritten] at h
  cases h
  simp [ofJson?, Json.record?, Json.field?, Json.text?, Json.bool?, Json.items?, orElse,
    Serial.ofText_text, Except.toOption, hread, Json.optionalText?_ofOption,
    File.mapM_ofJson?_toJson]

/-- A version whose time can be expressed is stored, and read back from its text. -/
theorem exists_text {version : Snapshot} (htime : version.createdAt.Expressible) :
    ∃ text, version.text? = some text ∧ ofText? text = some version := by
  rcases Timestamp.exists_text htime.writable with ⟨time, hwritten⟩
  cases hvalue : version.toJson? with
  | none => simp [toJson?, hwritten] at hvalue
  | some value =>
      refine ⟨value.pretty, ?_, ?_⟩
      · unfold text?
        rw [hvalue]
        rfl
      · unfold ofText?
        rw [Json.ofText?_pretty (numberFree_toJson hvalue)]
        exact ofJson?_toJson? htime hvalue

end Snapshot
end StencilDesk
