import BookCatalog.Link

/-!
# Links that leave the book

A link leaves the book when it is read, from a page of the book, as a URL of another scheme or with another
host (`Leaves`). If it begins with a scheme, it is the same URL when it is read on its own
(`parse?_of_leaves`). So it stays as it is when it has a host, and becomes a reference of the catalog when it
has none, as `mailto:` has not (`destination_of_leaving`). Nothing is said here of a link that begins with
two slashes and takes its scheme from the book.
-/

namespace BookCatalog.Link

open BookCatalog.Url

/-- A URL with another scheme than the pages of the book, or with another host. -/
def Leaves (url : Url) : Prop := url.scheme ≠ bookSite.scheme ∨ url.host ≠ some bookSite.host

instance (url : Url) : Decidable (Leaves url) := inferInstanceAs (Decidable (_ ∨ _))

/-- A link that names a host, but takes its scheme from the page that it stands in. -/
def TakesScheme (href : String) : Prop := 2 ≤ leadingSlashes (cleaned href)

instance (href : String) : Decidable (TakesScheme href) := inferInstanceAs (Decidable (_ ≤ _))

/-! ## References that stay -/

theorem leadingSlashes_cons {c : Char} (h : SchemeKind.special.isSlash c = true) (rest : List Char) :
    leadingSlashes (c :: rest) = leadingSlashes rest + 1 := by
  rw [leadingSlashes, List.takeWhile_cons_of_pos h, List.length_cons, leadingSlashes]

/-- What does not begin with two slashes names no host. -/
theorem relative?_stays {cs : List Char} {url : Url} (h : leadingSlashes cs < 2)
    (hurl : relative? bookSite cs = some url) : ¬Leaves url := by
  have hhere {parts : List String} {fragment : Option String}
      (h : some ⟨bookSite.scheme, some bookSite.host, .segments parts, fragment⟩ = some url) :
      ¬Leaves url := by
    cases h
    simp [Leaves]
  cases cs with
  | nil => exact hhere hurl
  | cons c rest =>
    simp only [relative?] at hurl
    split at hurl
    · exact hhere hurl
    split at hurl
    · rename_i hc
      rw [leadingSlashes_cons hc] at h
      cases rest with
      | nil => exact hhere hurl
      | cons d more =>
        have hd : SchemeKind.special.isSlash d = false := Bool.eq_false_iff.2 fun hd => by
          rw [leadingSlashes_cons hd] at h
          omega
        simp only [hd, Bool.false_eq_true, if_false] at hurl
        exact hhere hurl
    · exact hhere hurl

/-! ## Links that leave -/

/-- A link that leaves the book is the same URL on its own, unless it takes its scheme from the book. -/
theorem parse?_of_leaves {href : String} {url : Url} (hurl : resolve? bookSite href = some url)
    (hleaves : Leaves url) (hown : ¬TakesScheme href) : parse? href = some url := by
  simp only [resolve?] at hurl
  rw [parse?]
  cases hscheme : splitScheme? (cleaned href) with
  | none =>
    rw [hscheme] at hurl
    exact absurd hleaves (relative?_stays (Nat.not_le.1 hown) hurl)
  | some found =>
    obtain ⟨scheme, rest⟩ := found
    rw [hscheme] at hurl
    dsimp only at hurl
    split at hurl
    · rename_i hsame
      rw [Bool.and_eq_true, decide_eq_true_eq, decide_eq_true_eq] at hsame
      exact absurd hleaves (relative?_stays hsame.2 hurl)
    · exact hurl

theorem isExternal_of_parse? {href : String} {url : Url} (h : parse? href = some url) :
    isExternal href = url.host.isSome := by
  rw [isExternal, h, Option.any_some]

/-- What becomes of a link that is not kept. -/
theorem exists_of_destination_ne {href : String} {anchors : AnchorTable}
    (h : destination href anchors ≠ href) :
    isExternal href = false ∧ ∃ url, resolve? bookSite href = some url ∧
      destination href anchors = reference url anchors := by
  unfold destination at h ⊢
  cases hexternal : isExternal href with
  | true => simp [hexternal] at h
  | false =>
    cases hurl : resolve? bookSite href with
    | none => simp [hexternal, hurl] at h
    | some url => exact ⟨rfl, url, rfl, by simp⟩

/-- **A link that leaves the book for a host is kept**, and one that leaves it without a host becomes a
reference of the catalog. What else becomes a reference of the catalog stays inside the book. -/
theorem destination_of_leaving (href : String) (anchors : AnchorTable) :
    (∀ url, resolve? bookSite href = some url → Leaves url → ¬TakesScheme href →
      destination href anchors = if url.host.isSome then href else reference url anchors) ∧
    (destination href anchors ≠ href → ∃ url, resolve? bookSite href = some url ∧
      destination href anchors = reference url anchors ∧
      (Leaves url → url.host = none ∨ TakesScheme href)) := by
  refine ⟨fun url hurl hleaves hown => ?_, fun hne => ?_⟩
  · rw [destination, isExternal_of_parse? (parse?_of_leaves hurl hleaves hown), hurl]
  · obtain ⟨hexternal, url, hurl, hdestination⟩ := exists_of_destination_ne hne
    refine ⟨url, hurl, hdestination, fun hleaves => ?_⟩
    by_cases hown : TakesScheme href
    · exact .inr hown
    · rw [isExternal_of_parse? (parse?_of_leaves hurl hleaves hown)] at hexternal
      exact .inl (by simpa using hexternal)

/-- A file on the host of the book, under another scheme, and a telephone number. -/
theorem destination_of_leaving_ftp_and_tel :
    destination "ftp://book.invalid/notes.txt" ∅ = "ftp://book.invalid/notes.txt" ∧
    ∃ url, resolve? bookSite "tel:112" = some url ∧ destination "tel:112" ∅ = reference url ∅ ∧
      url.host = none := by
  have hsteps : resolve? bookSite "ftp://book.invalid/notes.txt" =
        some ⟨"ftp", some (.domain "book.invalid"), .segments ["notes.txt"], none⟩ ∧
      ¬TakesScheme "ftp://book.invalid/notes.txt" ∧
      resolve? bookSite "tel:112" = some ⟨"tel", none, .opaqueText "112", none⟩ ∧
      destination "tel:112" ∅ ≠ "tel:112" ∧ ¬TakesScheme "tel:112" := by decide
  obtain ⟨hftp, hownFtp, htel, hne, hownTel⟩ := hsteps
  refine ⟨(destination_of_leaving _ ∅).1 _ hftp (by decide) hownFtp, ?_⟩
  obtain ⟨url, hurl, hdestination, hleaves⟩ := (destination_of_leaving _ ∅).2 hne
  obtain rfl := Option.some.inj (htel.symm.trans hurl)
  exact ⟨_, htel, hdestination, (hleaves (by decide)).resolve_right hownTel⟩

/-- A mail address has a scheme of its own, and no host: the link leaves the book and is not kept. -/
theorem mail_link_not_kept : ∃ url,
    resolve? bookSite "mailto:someone@book.invalid" = some url ∧ Leaves url ∧
    destination "mailto:someone@book.invalid" ∅ = "doc:/" := by
  refine ⟨⟨"mailto", none, .opaqueText "someone@book.invalid", none⟩, ?_⟩
  decide

end BookCatalog.Link
