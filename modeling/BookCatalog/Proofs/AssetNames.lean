import BookCatalog.AssetName
import BookCatalog.Proofs.Runs

/-!
# Names of copied images

The name of a copied image has no character that the name of the image does not have, apart from the
underscore, the dot and the mark of the high resolution. So it has no slash (`no_slash_fileName`).
-/

namespace BookCatalog.AssetName

open BookCatalog.Text

/-- A logical name is made of characters of the stem and of underscores. -/
theorem mem_of_mem_name {stem : String} {c : Char} (h : c ∈ (ofStem stem).name.toList) :
    c = '_' ∨ c ∈ stem.toList := by
  unfold ofStem at h
  rw [String.toList_ofList] at h
  refine (mem_of_mem_intercalate h).imp List.mem_singleton.1 ?_
  rintro ⟨part, hpart, hc⟩
  have hsegment : part ∈ segments stem := by
    split at hpart
    · exact (List.dropLast_sublist _).subset hpart
    · exact hpart
  exact mem_of_mem_runs hsegment c hc

theorem no_slash_fileName {stem : String} {extension : Option String} (hstem : '/' ∉ stem.toList)
    (hextension : ∀ ext ∈ extension, '/' ∉ ext.toList) :
    '/' ∉ ((ofStem stem).fileName extension).toList := by
  have hname : '/' ∉ (ofStem stem).name.toList := fun h =>
    (mem_of_mem_name h).elim (by decide) hstem
  have hmark : '/' ∉ (resolutionSuffix (ofStem stem).hiRes).toList := by
    cases (ofStem stem).hiRes <;> decide
  have hsuffix : '/' ∉ (extensionSuffix extension).toList := by
    cases extension with
    | none => decide
    | some ext =>
      simp only [extensionSuffix]
      split
      · decide
      · simpa using hextension ext rfl
  simp [fileName, hname, hmark, hsuffix]

end BookCatalog.AssetName
