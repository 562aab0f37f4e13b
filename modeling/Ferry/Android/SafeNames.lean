import Ferry.Android.Metadata

/-!
# Safe file names

Both programs sanitise a remote-supplied file name with the same passes, and differ in what they do with
lone surrogates and with a code point that the limit on the length cuts.  This file says for which texts
the sanitised name is safe and stays the same when it is sanitised again.
-/

namespace Ferry

open Text

/-! ## What is promised -/

/-- Neither a separator nor a control character. -/
def IsPlain (c : CodePoint) : Prop := c ≠ slash ∧ c ≠ backslash ∧ 32 ≤ c.val ∧ c.val ≠ 127

/-- What stands before the first dot. -/
def stemOf (name : Text) : Text := name.takeWhile (· ≠ dot)

/-- A reserved name in any letter case. -/
def IsReserved (stem : Text) : Prop := asciiUpper stem ∈ reservedNames

instance (stem : Text) : Decidable (IsReserved stem) :=
  inferInstanceAs (Decidable (asciiUpper stem ∈ reservedNames))

/-- A safe name, where `size` counts the bytes of its UTF-8. -/
structure SafeName (size : Text → ℕ) (name : Text) : Prop where
  plain : ∀ c ∈ name, IsPlain c
  head : name.head? ≠ some dot
  size_le : size name ≤ 255
  stem : ¬IsReserved (stemOf name)

/-- The sanitiser returns nothing or a safe name, and the same name again when it is given that. -/
def Sanitises (size : Text → ℕ) (sanitise : Text → Option Text) (raw : Text) : Prop :=
  ∃ name, sanitise raw = some name ∧ (name = [] ∨ SafeName size name) ∧ sanitise name = some name

/-! ## The passes that both sanitisers share -/

/-- The last component without the dots in front of it and without control characters. -/
def bareName (raw : Text) : Text :=
  (lstrip [dot, slash] (basename ((raw.map fun c ↦ if c = backslash then slash else c).filter (· ≠ 0)))).filter
    fun c ↦ 32 ≤ c.val ∧ c.val ≠ 127

theorem isPlain_of_mem_bareName {raw : Text} {c : CodePoint} (h : c ∈ bareName raw) : IsPlain c := by
  obtain ⟨hbase, hprintable⟩ := List.mem_filter.mp h
  have hbase := (List.dropWhile_sublist _).subset hbase
  have hslashed := List.mem_reverse.mp ((List.takeWhile_sublist _).subset (List.mem_reverse.mp hbase))
  obtain ⟨d, -, hd⟩ := List.mem_map.mp (List.mem_filter.mp hslashed).1
  refine ⟨?_, ?_, by simpa using hprintable⟩
  · rintro rfl
    exact slash_notMem_basename _ hbase
  · rintro rfl
    split at hd
    · exact absurd hd (by decide)
    · next hne => exact hne hd

/-- The passes do nothing to a name that is already plain. -/
theorem bareName_eq_self {name : Text} (hplain : ∀ c ∈ name, IsPlain c) (hhead : name.head? ≠ some dot) :
    bareName name = name := by
  have hslashed : (name.map fun c ↦ if c = backslash then slash else c) = name := by
    refine (List.map_congr_left fun c hc ↦ ?_).trans (List.map_id name)
    exact if_neg (hplain c hc).2.1
  have hzero : name.filter (· ≠ 0) = name := by
    refine List.filter_eq_self.mpr fun c hc ↦ ?_
    have hprintable := (hplain c hc).2.2.1
    refine decide_eq_true fun hnul ↦ ?_
    rw [hnul] at hprintable
    exact absurd hprintable (by decide)
  have hbase : basename name = name := by
    rw [basename, List.takeWhile_eq_self_iff.mpr, List.reverse_reverse]
    exact fun c hc ↦ by simpa using (hplain c (List.mem_reverse.mp hc)).1
  have hstrip : lstrip [dot, slash] name = name := by
    cases name with
    | nil => rfl
    | cons c rest =>
      refine List.dropWhile_cons_of_neg ?_
      have hdot : c ≠ dot := by simpa using hhead
      simpa using ⟨hdot, (hplain c List.mem_cons_self).1⟩
  rw [bareName, hslashed, hzero, hbase, hstrip]
  exact List.filter_eq_self.mpr fun c hc ↦ by simpa using (hplain c hc).2.2

/-- The stem of a name that begins with a dot is empty, and not reserved. -/
theorem not_isReserved_of_head {name : Text} (h : name.head? = some dot) : ¬IsReserved (stemOf name) := by
  cases name with
  | nil => exact nomatch h
  | cons c rest =>
    obtain rfl := Option.some.inj h
    rw [stemOf, List.takeWhile_cons_of_neg (by simp)]
    unfold IsReserved
    decide

/-- A dot or two. -/
def DotsOnly (name : Text) : Prop := name = dotText ∨ name = dotdot

instance (name : Text) : Decidable (DotsOnly name) :=
  inferInstanceAs (Decidable (name = dotText ∨ name = dotdot))

theorem head_of_dotsOnly {name : Text} (h : DotsOnly name) : name.head? = some dot := by
  rcases h with rfl | rfl <;> rfl

/-! ## The Linux sanitiser -/

theorem sanitiseFilename_eq (raw : Text) : sanitiseFilename raw =
    if (bareName raw).any isSurrogate then .error (.value .unencodable)
    else if IsReserved (stemOf (utf8Truncate 255 (bareName raw))) then .ok []
    else if utf8Truncate 255 (bareName raw) = [] ∨ DotsOnly (utf8Truncate 255 (bareName raw)) then .ok []
    else .ok (utf8Truncate 255 (bareName raw)) := rfl

/-- A safe name is sanitised to itself. -/
theorem sanitiseFilename_of_safe {name : Text} (h : SafeName utf8Bytes name) (hne : name ≠ [])
    (hencodable : ¬name.any isSurrogate) : sanitiseFilename name = .ok name := by
  rw [sanitiseFilename_eq, bareName_eq_self h.plain h.head, utf8Truncate_eq_self h.size_le,
    if_neg hencodable, if_neg h.stem, if_neg]
  rintro (hempty | hdots)
  · exact hne hempty
  · exact h.head (head_of_dotsOnly hdots)

theorem sanitiseFilename_nil : sanitiseFilename [] = .ok [] := by decide

/-- The cut keeps a short beginning whole. -/
theorem eq_of_utf8Truncate {t u : Text} (h : utf8Truncate 255 t = u) (hshort : utf8Bytes u ≤ 251) : t = u := by
  subst h
  by_cases hfits : utf8Bytes t ≤ 255
  · exact (utf8Truncate_eq_self hfits).symm
  · have hcut := lt_utf8Bytes_utf8Truncate (not_le.mp hfits)
    omega

/-- The cut leaves the first code point. -/
theorem head?_utf8Truncate (t : Text) : (utf8Truncate 255 t).head? = t.head? := by
  cases t with
  | nil => rfl
  | cons c rest =>
    have hsize := utf8Size_le c
    rw [utf8Truncate, if_pos (by omega)]
    rfl

theorem dotsOnly_utf8Truncate_iff {t : Text} : DotsOnly (utf8Truncate 255 t) ↔ DotsOnly t := by
  constructor
  · intro h
    have hsame : t = utf8Truncate 255 t := by
      refine eq_of_utf8Truncate rfl ?_
      rcases h with h | h <;> rw [h] <;> decide
    rwa [← hsame] at h
  · rintro (rfl | rfl) <;> decide

/-- The Linux sanitiser returns a safe name, and the same name again, exactly when it can encode the name
and no removed control character stood before a dot in front. -/
theorem sanitises_iff (raw : Text) :
    Sanitises utf8Bytes (fun t ↦ (sanitiseFilename t).toOption) raw ↔
      ¬(bareName raw).any isSurrogate ∧ ((bareName raw).head? ≠ some dot ∨ DotsOnly (bareName raw)) := by
  set kept := utf8Truncate 255 (bareName raw) with hkept
  have hhead : kept.head? = (bareName raw).head? := head?_utf8Truncate _
  constructor
  · rintro ⟨name, hname, hsafe, -⟩
    dsimp only at hname
    rw [sanitiseFilename_eq, ← hkept] at hname
    by_cases hencodable : (bareName raw).any isSurrogate
    · rw [if_pos hencodable] at hname
      exact nomatch hname
    · refine ⟨hencodable, or_iff_not_imp_left.mpr fun hdot ↦ ?_⟩
      rw [not_not, ← hhead] at hdot
      rw [if_neg hencodable, if_neg (not_isReserved_of_head hdot)] at hname
      by_contra hdots
      have hnonempty : kept ≠ [] := by
        intro hnil
        rw [hnil] at hdot
        exact nomatch hdot
      rw [if_neg (not_or.mpr ⟨hnonempty, mt dotsOnly_utf8Truncate_iff.mp hdots⟩)] at hname
      obtain rfl := Option.some.inj hname
      rcases hsafe with hnil | hsafe
      · exact hnonempty hnil
      · exact hsafe.head hdot
  · rintro ⟨hencodable, hdots⟩
    have hsubset := (prefix_utf8Truncate 255 (bareName raw)).subset
    unfold Sanitises
    dsimp only
    rw [sanitiseFilename_eq, ← hkept, if_neg hencodable]
    by_cases hreserved : IsReserved (stemOf kept)
    · rw [if_pos hreserved]
      exact ⟨[], rfl, .inl rfl, congrArg Except.toOption sanitiseFilename_nil⟩
    · rw [if_neg hreserved]
      by_cases hempty : kept = [] ∨ DotsOnly kept
      · rw [if_pos hempty]
        exact ⟨[], rfl, .inl rfl, congrArg Except.toOption sanitiseFilename_nil⟩
      · rw [if_neg hempty]
        obtain ⟨hnonempty, hnodots⟩ := not_or.mp hempty
        have hsafe : SafeName utf8Bytes kept := {
          plain := fun c hc ↦ isPlain_of_mem_bareName (hsubset hc)
          head := by
            rw [hhead]
            exact hdots.resolve_right (mt dotsOnly_utf8Truncate_iff.mpr hnodots)
          size_le := utf8Bytes_utf8Truncate_le 255 _
          stem := hreserved }
        have hkeptEncodable : ¬kept.any isSurrogate := by
          intro hany
          obtain ⟨c, hc, hsurrogate⟩ := List.any_eq_true.mp hany
          exact hencodable (List.any_eq_true.mpr ⟨c, hsubset hc, hsurrogate⟩)
        exact ⟨kept, rfl, .inr hsafe,
          congrArg Except.toOption (sanitiseFilename_of_safe hsafe hnonempty hkeptEncodable)⟩

namespace Kotlin

/-! ## Surrogate pairs -/

theorem joinPair_val {high low : CodePoint} (hhigh : isHighSurrogate high) (hlow : isLowSurrogate low) :
    0x10000 ≤ (joinPair high low).val := by
  simp only [isHighSurrogate, isLowSurrogate, Bool.and_eq_true, decide_eq_true_eq] at hhigh hlow
  simp only [joinPair, Fin.val_ofNat]
  omega

theorem joinPairs_cons_cons (high low : CodePoint) (rest : Text) : joinPairs (high :: low :: rest) =
    if isHighSurrogate high ∧ isLowSurrogate low then joinPair high low :: joinPairs rest
    else high :: joinPairs (low :: rest) := by
  rw [joinPairs]

theorem joinPairs_cons_of_not_high {c : CodePoint} (h : ¬isHighSurrogate c) (t : Text) :
    joinPairs (c :: t) = c :: joinPairs t := by
  cases t with
  | nil => rfl
  | cons d rest => rw [joinPairs_cons_cons, if_neg fun hpair ↦ h hpair.1]

/-- Induction along the pairs of a text. -/
@[elab_as_elim]
theorem pairs_induction {motive : Text → Prop}
    (pair : ∀ high low rest, isHighSurrogate high ∧ isLowSurrogate low → motive rest →
      motive (high :: low :: rest))
    (single : ∀ high low rest, ¬(isHighSurrogate high ∧ isLowSurrogate low) → motive (low :: rest) →
      motive (high :: low :: rest))
    (short : ∀ t, t.length ≤ 1 → motive t) (t : Text) : motive t := by
  induction hlength : t.length using Nat.strong_induction_on generalizing t with
  | _ n ih =>
    subst hlength
    match t with
    | [] | [_] => exact short _ (by simp)
    | high :: low :: rest =>
      by_cases hpair : isHighSurrogate high ∧ isLowSurrogate low
      · exact pair high low rest hpair (ih rest.length (by grind) rest rfl)
      · exact single high low rest hpair (ih _ (by simp) (low :: rest) rfl)

theorem joinPairs_of_short {t : Text} (h : t.length ≤ 1) : joinPairs t = t := by
  rw [joinPairs.eq_2]
  rintro high low rest rfl
  simp at h

/-- The code points of the joined text are those of the text, and pairs. -/
theorem mem_joinPairs {t : Text} {c : CodePoint} (h : c ∈ joinPairs t) : c ∈ t ∨ 0x10000 ≤ c.val := by
  induction t using pairs_induction with
  | pair high low rest hpair ih =>
    rw [joinPairs_cons_cons, if_pos hpair] at h
    rcases List.mem_cons.mp h with rfl | hrest
    · exact .inr (joinPair_val hpair.1 hpair.2)
    · exact (ih hrest).imp_left fun hmem ↦ List.mem_cons_of_mem _ (List.mem_cons_of_mem _ hmem)
  | single high low rest hpair ih =>
    rw [joinPairs_cons_cons, if_neg hpair] at h
    rcases List.mem_cons.mp h with rfl | hrest
    · exact .inl List.mem_cons_self
    · exact (ih hrest).imp_left fun hmem ↦ List.mem_cons_of_mem _ hmem
  | short t hshort =>
    rw [joinPairs_of_short hshort] at h
    exact .inl h

/-- A joined text begins as the text does, or with a pair. -/
theorem head?_joinPairs {t : Text} {c : CodePoint} (h : (joinPairs t).head? = some c)
    (hsmall : c.val < 0x10000) : t.head? = some c := by
  induction t using pairs_induction with
  | pair high low rest hpair ih =>
    rw [joinPairs_cons_cons, if_pos hpair] at h
    obtain rfl := Option.some.inj h
    exact absurd (joinPair_val hpair.1 hpair.2) (by omega)
  | single high low rest hpair ih =>
    rw [joinPairs_cons_cons, if_neg hpair] at h
    exact h
  | short t hshort =>
    rwa [joinPairs_of_short hshort] at h

theorem joinPairs_joinPairs (t : Text) : joinPairs (joinPairs t) = joinPairs t := by
  induction t using pairs_induction with
  | pair high low rest hpair ih =>
    have hlarge := joinPair_val hpair.1 hpair.2
    have hnothigh : ¬isHighSurrogate (joinPair high low) := by
      simp only [isHighSurrogate, Bool.and_eq_true, decide_eq_true_eq]
      omega
    rw [joinPairs_cons_cons, if_pos hpair, joinPairs_cons_of_not_high hnothigh, ih]
  | single high low rest hpair ih =>
    rw [joinPairs_cons_cons, if_neg hpair]
    cases hjoined : joinPairs (low :: rest) with
    | nil => rfl
    | cons c joined =>
      rw [joinPairs_cons_cons, if_neg, ← hjoined, ih]
      rintro ⟨hhigh, hlow⟩
      have hsmall : c.val < 0x10000 := by
        simp only [isLowSurrogate, Bool.and_eq_true, decide_eq_true_eq] at hlow
        omega
      have hhead := @head?_joinPairs (low :: rest) c (by rw [hjoined]; rfl) hsmall
      obtain rfl := Option.some.inj hhead
      exact hpair ⟨hhigh, hlow⟩
  | short t hshort =>
    rw [joinPairs_of_short hshort, joinPairs_of_short hshort]

theorem joinPairs_of_no_surrogate {t : Text} (h : ∀ c ∈ t, ¬isSurrogate c) : joinPairs t = t := by
  induction t with
  | nil => rfl
  | cons c rest ih =>
    have hnothigh : ¬isHighSurrogate c := by
      have hc := h c List.mem_cons_self
      simp only [isSurrogate, isHighSurrogate, Bool.and_eq_true, decide_eq_true_eq] at hc ⊢
      omega
    rw [joinPairs_cons_of_not_high hnothigh, ih fun d hd ↦ h d (List.mem_cons_of_mem _ hd)]

/-! ## The cut -/

/-- What the encoder writes for a text. -/
def encodable (t : Text) : Text := t.map fun c ↦ if isSurrogate c then questionMark else c

/-- How many bytes of a long name are whole code points before the cut. -/
def keptBytes (name : Text) : ℕ := utf8Bytes (utf8Truncate 255 (encodable name))

theorem utf8Bytes_encodable (t : Text) : utf8Bytes (encodable t) = utf8Length t := by
  rw [utf8Bytes, encodable, List.map_map, utf8Length]
  congr 1
  apply List.map_congr_left
  intro c _
  rw [Function.comp_apply]
  split
  · decide
  · rfl

theorem not_isSurrogate_of_mem_encodable {t : Text} {c : CodePoint} (h : c ∈ encodable t) :
    ¬isSurrogate c := by
  obtain ⟨d, -, rfl⟩ := List.mem_map.mp h
  split
  · decide
  · next hd => exact hd

theorem utf8Length_of_no_surrogate {t : Text} (h : ∀ c ∈ t, ¬isSurrogate c) : utf8Length t = utf8Bytes t := by
  rw [utf8Length, utf8Bytes]
  congr 1
  exact List.map_congr_left fun c hc ↦ if_neg (h c hc)

/-- The name when it fits, and what is left of a longer one. -/
def cutName (name : Text) : Text :=
  if 255 < utf8Length name then truncateUtf8 255 name else name

theorem sanitiseFilename_eq (raw : Text) : sanitiseFilename raw =
    if isBlank (cutName (joinPairs (bareName raw))) ∨ DotsOnly (cutName (joinPairs (bareName raw))) then []
    else if IsReserved (stemOf (cutName (joinPairs (bareName raw)))) then []
    else cutName (joinPairs (bareName raw)) := rfl

section Long

variable {name : Text} (hlong : 255 < utf8Length name)
include hlong

theorem cutName_eq : cutName name =
    utf8Truncate 255 (encodable name) ++ if keptBytes name < 255 then [replacement] else [] := by
  rw [cutName, if_pos hlong]
  change (if keptBytes name < 255 then _ else _) = _
  split
  · rfl
  · rw [List.append_nil]
    rfl

theorem keptBytes_bounds : 252 ≤ keptBytes name ∧ keptBytes name ≤ 255 := by
  have hcut := @lt_utf8Bytes_utf8Truncate 255 (encodable name) (by rwa [utf8Bytes_encodable])
  have hle := utf8Bytes_utf8Truncate_le 255 (encodable name)
  unfold keptBytes
  omega

theorem not_isSurrogate_of_mem_cutName {c : CodePoint} (h : c ∈ cutName name) : ¬isSurrogate c := by
  rw [cutName_eq hlong] at h
  rcases List.mem_append.mp h with hkept | hreplacement
  · exact not_isSurrogate_of_mem_encodable ((prefix_utf8Truncate 255 _).subset hkept)
  · split at hreplacement
    · obtain rfl := List.mem_singleton.mp hreplacement
      decide
    · exact absurd hreplacement List.not_mem_nil

/-- The replacement of a code point that was cut takes three bytes. -/
theorem utf8Length_cutName :
    utf8Length (cutName name) = keptBytes name + if keptBytes name < 255 then 3 else 0 := by
  rw [utf8Length_of_no_surrogate fun c hc ↦ not_isSurrogate_of_mem_cutName hlong hc, cutName_eq hlong,
    utf8Bytes_append]
  congr 1
  split <;> decide

end Long

theorem isPlain_of_mem_cutName {name : Text} (hplain : ∀ c ∈ name, IsPlain c) {c : CodePoint}
    (h : c ∈ cutName name) : IsPlain c := by
  by_cases hlong : 255 < utf8Length name
  · rw [cutName_eq hlong] at h
    rcases List.mem_append.mp h with hkept | hreplacement
    · obtain ⟨d, hd, rfl⟩ := List.mem_map.mp ((prefix_utf8Truncate 255 _).subset hkept)
      split
      · unfold IsPlain
        decide
      · exact hplain d hd
    · split at hreplacement
      · obtain rfl := List.mem_singleton.mp hreplacement
        unfold IsPlain
        decide
      · exact absurd hreplacement List.not_mem_nil
  · rw [cutName, if_neg hlong] at h
    exact hplain c h

theorem head?_cutName_iff {name : Text} : (cutName name).head? = some dot ↔ name.head? = some dot := by
  by_cases hlong : 255 < utf8Length name
  · cases name with
    | nil => exact absurd hlong (by decide)
    | cons c rest =>
      have hhead : (utf8Truncate 255 (encodable (c :: rest))).head? =
          some (if isSurrogate c then questionMark else c) := by
        rw [head?_utf8Truncate]
        rfl
      rw [cutName_eq hlong, List.head?_append, hhead, Option.some_or, List.head?_cons, Option.some_inj,
        Option.some_inj]
      split
      · next hsurrogate =>
        refine ⟨fun h ↦ absurd h (by decide), ?_⟩
        rintro rfl
        exact absurd hsurrogate (by decide)
      · rfl
  · rw [cutName, if_neg hlong]

theorem dotsOnly_cutName_iff {name : Text} : DotsOnly (cutName name) ↔ DotsOnly name := by
  by_cases hlong : 255 < utf8Length name
  · have hbounds := keptBytes_bounds hlong
    have hlength := utf8Length_cutName hlong
    constructor
    · intro h
      have hshort : utf8Length (cutName name) ≤ 2 := by
        rcases h with h | h <;> rw [h] <;> decide
      omega
    · intro h
      have hshort : utf8Length name ≤ 2 := by
        rcases h with h | h <;> rw [h] <;> decide
      omega
  · rw [cutName, if_neg hlong]

/-! ### The stem -/

theorem length_le_of_isReserved {stem : Text} (h : IsReserved stem) : stem.length ≤ 4 := by
  have hshort : ∀ name ∈ reservedNames, name.length ≤ 4 := by decide
  simpa [asciiUpper] using hshort _ h

theorem asciiUpper_of_large {c : CodePoint} {t : Text} (hc : c ∈ t) (hlarge : ¬(0x61 ≤ c.val ∧ c.val ≤ 0x7A)) :
    c ∈ asciiUpper t :=
  List.mem_map.mpr ⟨c, hc, if_neg hlarge⟩

theorem isReserved_encodable_iff {stem : Text} : IsReserved (encodable stem) ↔ IsReserved stem := by
  have hquestion : ∀ name ∈ reservedNames, questionMark ∉ name := by decide
  have hsurrogates : ∀ name ∈ reservedNames, name.all fun c ↦ !isSurrogate c := by decide
  by_cases hany : ∃ c ∈ stem, isSurrogate c
  · obtain ⟨c, hc, hsurrogate⟩ := hany
    refine iff_of_false (fun h ↦ ?_) fun h ↦ ?_
    · have hmem : questionMark ∈ encodable stem := List.mem_map.mpr ⟨c, hc, if_pos hsurrogate⟩
      exact hquestion _ h (asciiUpper_of_large hmem (by decide))
    · have hlarge : ¬(0x61 ≤ c.val ∧ c.val ≤ 0x7A) := by
        simp only [isSurrogate, Bool.and_eq_true, decide_eq_true_eq] at hsurrogate
        omega
      have hnot := List.all_eq_true.mp (hsurrogates _ h) c (asciiUpper_of_large hc hlarge)
      rw [hsurrogate] at hnot
      exact nomatch hnot
  · have hsame : encodable stem = stem :=
      (List.map_congr_left fun c hc ↦ if_neg fun h ↦ hany ⟨c, hc, h⟩).trans (List.map_id stem)
    rw [hsame]

theorem stemOf_encodable (name : Text) : stemOf (encodable name) = encodable (stemOf name) := by
  rw [stemOf, encodable, List.takeWhile_map, stemOf, encodable]
  congr 1
  congr 1
  funext c
  rw [Function.comp_apply]
  split
  · next hsurrogate =>
    have hne : c ≠ dot := by
      rintro rfl
      exact absurd hsurrogate (by decide)
    simp [hne, show questionMark ≠ dot by decide]
  · rfl

/-- A stem that ends within a part of the name is the stem of that part. -/
theorem stemOf_append {part : Text} (h : dot ∈ part) (rest : Text) :
    stemOf (part ++ rest) = stemOf part := by
  unfold stemOf
  rw [List.takeWhile_append, if_neg]
  intro hwhole
  have hall := List.takeWhile_eq_self_iff.mp ((List.takeWhile_prefix _).eq_of_length hwhole)
  simpa using hall dot h

theorem stemOf_of_notMem {part : Text} (h : dot ∉ part) (rest : Text) :
    part.length ≤ (stemOf (part ++ rest)).length := by
  unfold stemOf
  rw [List.takeWhile_append_of_pos fun c hc ↦ ?_]
  · simp
  · have hne : c ≠ dot := by
      rintro rfl
      exact h hc
    simpa using hne

theorem utf8Bytes_le_length (t : Text) : utf8Bytes t ≤ 4 * t.length := by
  induction t with
  | nil => exact Nat.zero_le _
  | cons c rest ih =>
    have hsize := utf8Size_le c
    rw [utf8Bytes_cons, List.length_cons]
    omega

/-- The cut is far behind a reserved stem. -/
theorem isReserved_stemOf_cutName {name : Text} :
    IsReserved (stemOf (cutName name)) ↔ IsReserved (stemOf name) := by
  by_cases hlong : 255 < utf8Length name
  · rw [← @isReserved_encodable_iff (stemOf name), ← stemOf_encodable, cutName_eq hlong]
    obtain ⟨rest, hrest⟩ := prefix_utf8Truncate 255 (encodable name)
    set part := utf8Truncate 255 (encodable name) with hpart
    rw [← hrest]
    by_cases hdot : dot ∈ part
    · rw [stemOf_append hdot, stemOf_append hdot]
    · have hlength : 4 < part.length := by
        have hbytes : 252 ≤ utf8Bytes part := (keptBytes_bounds hlong).1
        have hle := utf8Bytes_le_length part
        omega
      refine iff_of_false (fun h ↦ ?_) fun h ↦ ?_
      · have hle := (stemOf_of_notMem hdot _).trans (length_le_of_isReserved h)
        omega
      · have hle := (stemOf_of_notMem hdot _).trans (length_le_of_isReserved h)
        omega
  · rw [cutName, if_neg hlong]

/-! ## The Android sanitiser -/

/-- A safe name is sanitised to itself. -/
theorem sanitiseFilename_of_safe {name : Text} (h : SafeName utf8Length name) (hblank : ¬isBlank name)
    (hpairs : joinPairs name = name) : sanitiseFilename name = name := by
  have hcut : cutName name = name := if_neg (not_lt.mpr h.size_le)
  rw [sanitiseFilename_eq, bareName_eq_self h.plain h.head, hpairs, hcut, if_neg, if_neg h.stem]
  rintro (hempty | hdots)
  · exact hblank hempty
  · exact h.head (head_of_dotsOnly hdots)

/-- The cut leaves at most 255 bytes, unless it falls one or two bytes into a code point that fits the
last three bytes no more. -/
def CutFits (name : Text) : Prop :=
  utf8Length name ≤ 255 ∨ keptBytes name = 252 ∨ keptBytes name = 255

theorem utf8Length_cutName_le_iff {name : Text} : utf8Length (cutName name) ≤ 255 ↔ CutFits name := by
  by_cases hlong : 255 < utf8Length name
  · have hbounds := keptBytes_bounds hlong
    rw [utf8Length_cutName hlong]
    unfold CutFits
    split <;> omega
  · rw [cutName, if_neg hlong]
    exact iff_of_true (not_lt.mp hlong) (.inl (not_lt.mp hlong))

theorem joinPairs_cutName (name : Text) (hpairs : joinPairs name = name) :
    joinPairs (cutName name) = cutName name := by
  by_cases hlong : 255 < utf8Length name
  · exact joinPairs_of_no_surrogate fun c hc ↦ not_isSurrogate_of_mem_cutName hlong hc
  · rw [cutName, if_neg hlong, hpairs]

theorem not_isBlank_of_head {name : Text} (h : name.head? = some dot) : ¬isBlank name := by
  intro hblank
  have hmem := List.mem_of_mem_head? h
  exact absurd (List.all_eq_true.mp hblank dot hmem) (by decide)

/-- A name that is cut inside a code point is not blank. -/
theorem not_isBlank_cutName {name : Text} (h : ¬CutFits name) : ¬isBlank (cutName name) := by
  obtain ⟨hlong, hkept⟩ := not_or.mp h
  rw [not_le] at hlong
  have hbounds := keptBytes_bounds hlong
  intro hblank
  rw [cutName_eq hlong, if_pos (by omega)] at hblank
  have hall := List.all_eq_true.mp hblank replacement (List.mem_append_right _ List.mem_cons_self)
  exact absurd hall (by decide)

/-- The Android sanitiser returns a safe name, and the same name again, exactly when no removed control
character stood before a dot in front, and the cut of a name that is not reserved fits. -/
theorem sanitises_iff (raw : Text) :
    Sanitises utf8Length (fun t ↦ some (sanitiseFilename t)) raw ↔
      ((joinPairs (bareName raw)).head? ≠ some dot ∨ DotsOnly (joinPairs (bareName raw))) ∧
      (CutFits (joinPairs (bareName raw)) ∨ IsReserved (stemOf (joinPairs (bareName raw)))) := by
  set name := joinPairs (bareName raw) with hname
  have hnil : sanitiseFilename [] = [] := by decide
  have hresult : ¬isBlank (cutName name) → ¬DotsOnly name → ¬IsReserved (stemOf name) →
      sanitiseFilename raw = cutName name := by
    intro hblank hdots hreserved
    rw [sanitiseFilename_eq, ← hname, if_neg (not_or.mpr ⟨hblank, mt dotsOnly_cutName_iff.mp hdots⟩),
      if_neg (mt isReserved_stemOf_cutName.mp hreserved)]
  constructor
  · rintro ⟨found, hfound, hsafe, -⟩
    obtain rfl := Option.some.inj hfound
    have hleaves (hblank : ¬isBlank (cutName name)) (hdots : ¬DotsOnly name)
        (hreserved : ¬IsReserved (stemOf name)) : SafeName utf8Length (cutName name) := by
      rw [hresult hblank hdots hreserved] at hsafe
      refine hsafe.resolve_left fun hempty ↦ hblank ?_
      rw [hempty]
      rfl
    constructor
    · by_contra hnot
      obtain ⟨hdot, hdots⟩ := not_or.mp hnot
      rw [not_not] at hdot
      have hcutdot := head?_cutName_iff.mpr hdot
      exact (hleaves (not_isBlank_of_head hcutdot) hdots (not_isReserved_of_head hdot)).head hcutdot
    · by_contra hnot
      obtain ⟨hcut, hreserved⟩ := not_or.mp hnot
      have hdots : ¬DotsOnly name := by
        intro hdots
        refine hcut (.inl ?_)
        rcases hdots with h | h <;> rw [h] <;> decide
      exact hcut (utf8Length_cutName_le_iff.mp
        (hleaves (not_isBlank_cutName hcut) hdots hreserved).size_le)
  · rintro ⟨hdots, hcut⟩
    refine ⟨_, rfl, ?_⟩
    by_cases hempty : isBlank (cutName name) ∨ DotsOnly (cutName name)
    · have hvanishes : sanitiseFilename raw = [] := by rw [sanitiseFilename_eq, ← hname, if_pos hempty]
      rw [hvanishes]
      exact ⟨.inl rfl, congrArg some hnil⟩
    · obtain ⟨hblank, hnodots⟩ := not_or.mp hempty
      by_cases hreserved : IsReserved (stemOf name)
      · have hvanishes : sanitiseFilename raw = [] := by
          rw [sanitiseFilename_eq, ← hname, if_neg hempty,
            if_pos (isReserved_stemOf_cutName.mpr hreserved)]
        rw [hvanishes]
        exact ⟨.inl rfl, congrArg some hnil⟩
      · have hplain : ∀ c ∈ name, IsPlain c := by
          intro c hc
          rcases mem_joinPairs hc with hbare | hlarge
          · exact isPlain_of_mem_bareName hbare
          · refine ⟨?_, ?_, by omega, by omega⟩
            · rintro rfl
              exact absurd hlarge (by decide)
            · rintro rfl
              exact absurd hlarge (by decide)
        have hsafe : SafeName utf8Length (cutName name) := {
          plain := fun c hc ↦ isPlain_of_mem_cutName hplain hc
          head := by
            rw [Ne, head?_cutName_iff]
            exact hdots.resolve_right (mt dotsOnly_cutName_iff.mpr hnodots)
          size_le := utf8Length_cutName_le_iff.mpr (hcut.resolve_right hreserved)
          stem := mt isReserved_stemOf_cutName.mp hreserved }
        rw [hresult hblank (mt dotsOnly_cutName_iff.mpr hnodots) hreserved]
        exact ⟨.inr hsafe, congrArg some (sanitiseFilename_of_safe hsafe hblank
          (joinPairs_cutName name (joinPairs_joinPairs _)))⟩

end Kotlin

/-! ## Both sanitisers -/

/-- For every text: what each of the two returns is safe and stays the same exactly when the name does not
begin with a dot that a control character shielded, and when Linux can encode it and Android cuts it at
the right place. -/
theorem safe_names_iff (raw : Text) :
    (Sanitises utf8Bytes (fun t ↦ (sanitiseFilename t).toOption) raw ↔
      ¬(bareName raw).any isSurrogate ∧ ((bareName raw).head? ≠ some dot ∨ DotsOnly (bareName raw))) ∧
    (Sanitises Kotlin.utf8Length (fun t ↦ some (Kotlin.sanitiseFilename t)) raw ↔
      ((Kotlin.joinPairs (bareName raw)).head? ≠ some dot ∨
        DotsOnly (Kotlin.joinPairs (bareName raw))) ∧
      (Kotlin.CutFits (Kotlin.joinPairs (bareName raw)) ∨
        IsReserved (stemOf (Kotlin.joinPairs (bareName raw))))) :=
  ⟨sanitises_iff raw, Kotlin.sanitises_iff raw⟩

/-- A control character in front of a dot, and 253 letters in front of a code point of three bytes. -/
def shielded : Text := [1, dot, 0x78]
def overlong : Text := List.replicate 253 0x61 ++ [0x20AC]

/-- Both sanitisers leave a leading dot, which the second pass removes, and Android leaves 256 bytes. -/
theorem unsafe_names :
    sanitiseFilename shielded = .ok [dot, 0x78] ∧ sanitiseFilename [dot, 0x78] = .ok [0x78] ∧
      ¬Sanitises utf8Bytes (fun t ↦ (sanitiseFilename t).toOption) shielded ∧
      ¬Sanitises Kotlin.utf8Length (fun t ↦ some (Kotlin.sanitiseFilename t)) shielded ∧
      Kotlin.utf8Length (Kotlin.sanitiseFilename overlong) = 256 ∧
      ¬Sanitises Kotlin.utf8Length (fun t ↦ some (Kotlin.sanitiseFilename t)) overlong := by
  have hlinux : sanitiseFilename shielded = .ok [dot, 0x78] := by decide +kernel
  have handroid : Kotlin.sanitiseFilename shielded = [dot, 0x78] := by decide +kernel
  have hlong : Kotlin.utf8Length (Kotlin.sanitiseFilename overlong) = 256 := by decide +kernel
  refine ⟨hlinux, by decide +kernel, ?_, ?_, hlong, ?_⟩
  · rintro ⟨name, hname, hsafe, -⟩
    dsimp only at hname
    rw [hlinux] at hname
    obtain rfl := Option.some.inj hname
    rcases hsafe with hnil | hsafe
    · exact nomatch hnil
    · exact hsafe.head rfl
  · rintro ⟨name, hname, hsafe, -⟩
    dsimp only at hname
    rw [handroid] at hname
    obtain rfl := Option.some.inj hname
    rcases hsafe with hnil | hsafe
    · exact nomatch hnil
    · exact hsafe.head rfl
  · rintro ⟨name, hname, hsafe, -⟩
    obtain rfl := Option.some.inj hname
    rcases hsafe with hnil | hsafe
    · rw [hnil] at hlong
      exact absurd hlong (by decide)
    · have hle := hsafe.size_le
      omega

end Ferry
