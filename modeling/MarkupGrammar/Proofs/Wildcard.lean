import MarkupGrammar.Proofs.Numbering
import MarkupGrammar.Proofs.Outcome
import MarkupGrammar.Proofs.Overlap
import MarkupGrammar.Proofs.Text.Words

/-! # Namespace attributes

The value of a namespace attribute is one of two keywords for a whole range, or a list of words,
each of which stands for one namespace; `Denotes` says which namespaces are meant. The wildcards
read from it allow the names of these namespaces (`ReadsAs.allows_iff`), no two of them overlap
(`ReadsAs.pairwise`), and reading fails only for a list with a word that looks like a keyword and
is none (`exists_error_iff`). Words that are written differently may stand for one namespace;
there is one wildcard for it then. -/

namespace MarkupGrammar

namespace Wildcard

variable {target space : Option String} {value word : String} {processing : Processing}
  {w : Wildcard} {ws : List Wildcard}

/-! ## What is denoted -/

/-- A word of a list that looks like a keyword and is none. -/
structure IsStray (word : String) : Prop where
  marked : ['#', '#'] <+: word.toList
  not_absent : word ≠ "##local"
  not_target : word ≠ "##targetNamespace"

/-- The namespace that a word of a list stands for. -/
inductive Names (target : Option String) (word : String) : Option String → Prop
  | absent (h : word = "##local") : Names target word none
  | target (h : word = "##targetNamespace") : Names target word target
  | uri (h : ¬ ['#', '#'] <+: word.toList) : Names target word (some word)

/-- The value is a keyword, with blanks around it perhaps. -/
def IsKeyword (value keyword : String) : Prop := Text.IsPadded keyword.toList value.toList

/-- The word stands in the list that the value is. -/
def Lists (value word : String) : Prop := Text.HasWord value.toList word.toList

/-- The namespaces that a namespace attribute denotes. -/
inductive Denotes (target : Option String) (value : String) : Option String → Prop
  | any {space : Option String} (h : IsKeyword value "##any") : Denotes target value space
  | other {space : Option String} (h : IsKeyword value "##other") (hne : space ≠ target) :
    Denotes target value space
  | listed {word : String} {space : Option String} (hw : Lists value word)
      (h : Names target word space) : Denotes target value space

/-- The value is a list with a stray word. -/
structure IsStrayList (value : String) : Prop where
  not_any : ¬ IsKeyword value "##any"
  not_other : ¬ IsKeyword value "##other"
  exists_isStray : ∃ word, Lists value word ∧ IsStray word

/-! ## Words of lists -/

theorem isSome_after? (word : String) :
    (Text.after? ['#', '#'] word.toList).isSome ↔ ['#', '#'] <+: word.toList := by
  simp only [Option.isSome_iff_exists, Text.after?_eq_some_iff]
  exact exists_congr fun _ => eq_comm

/-- The keywords of lists look like keywords. -/
theorem prefix_of_keyword (h : word = "##local" ∨ word = "##targetNamespace") :
    ['#', '#'] <+: word.toList := by
  rcases h with rfl | rfl <;> decide

theorem spaceOfWord_eq_ok_iff : spaceOfWord target word = .ok space ↔ Names target word space := by
  unfold spaceOfWord
  constructor
  · intro h
    split_ifs at h with habsent htarget hmarked
    · rw [← Except.ok.inj h]
      exact .absent habsent
    · rw [← Except.ok.inj h]
      exact .target htarget
    · rw [← Except.ok.inj h]
      exact .uri (mt (isSome_after? word).mpr hmarked)
  · rintro (h | h | h)
    · rw [if_pos h]
    · rw [h]
      rfl
    · rw [if_neg fun hw => h (prefix_of_keyword (.inl hw)),
        if_neg fun hw => h (prefix_of_keyword (.inr hw)), if_neg (mt (isSome_after? word).mp h)]

theorem exists_spaceOfWord_eq_error_iff :
    (∃ f, spaceOfWord target word = .error f) ↔ IsStray word := by
  unfold spaceOfWord
  constructor
  · rintro ⟨f, h⟩
    split_ifs at h with habsent htarget hmarked
    exact ⟨(isSome_after? word).mp hmarked, habsent, htarget⟩
  · rintro ⟨hmarked, habsent, htarget⟩
    rw [if_neg habsent, if_neg htarget, if_pos ((isSome_after? word).mpr hmarked)]
    exact ⟨_, rfl⟩

/-! ## Lists without repetitions -/

theorem nodup_distinct (ws : List Wildcard) : (distinct ws).Nodup :=
  (foldl_distinct [] ws List.nodup_nil).1

theorem mem_distinct : w ∈ distinct ws ↔ w ∈ ws :=
  ((foldl_distinct [] ws List.nodup_nil).2 w).trans (or_iff_right List.not_mem_nil)

/-! ## Values -/

theorem isWord_any : Text.IsWord "##any".toList := .of_all (by decide) (by decide)

theorem isWord_other : Text.IsWord "##other".toList := .of_all (by decide) (by decide)

theorem trim_eq_any_iff : Text.trim value = "##any" ↔ IsKeyword value "##any" :=
  Text.trim_eq_iff isWord_any.isTrimmed

theorem trim_eq_other_iff : Text.trim value = "##other" ↔ IsKeyword value "##other" :=
  Text.trim_eq_iff isWord_other.isTrimmed

/-- The word of a keyword for a range is stray in lists, so that no namespace is listed. -/
theorem IsKeyword.not_names {keyword : String} (h : IsKeyword value keyword)
    (hk : keyword ∈ ["##any", "##other"]) (hw : Lists value word) : ¬ Names target word space := by
  have hword : Text.IsWord keyword.toList ∧ IsStray keyword := by
    simp only [List.mem_cons, List.not_mem_nil, or_false] at hk
    rcases hk with rfl | rfl
    · exact ⟨isWord_any, by decide, by decide, by decide⟩
    · exact ⟨isWord_other, by decide, by decide, by decide⟩
  obtain ⟨hkw, hstray⟩ := hword
  rw [Lists, ← Text.mem_wordLists_iff, h.wordLists_eq, hkw.wordLists_eq_singleton,
    List.mem_singleton, String.toList_inj] at hw
  rw [← spaceOfWord_eq_ok_iff, hw]
  obtain ⟨f, hf⟩ := exists_spaceOfWord_eq_error_iff.mpr hstray
  rw [hf]
  exact nofun

theorem ofAttribute_any (h : IsKeyword value "##any") :
    ofAttribute value target processing = .ok [⟨.any, processing⟩] := by
  unfold ofAttribute
  rw [trim_eq_any_iff.mpr h]
  rfl

theorem ofAttribute_other (h : IsKeyword value "##other") :
    ofAttribute value target processing = .ok [⟨.other target, processing⟩] := by
  unfold ofAttribute
  rw [trim_eq_other_iff.mpr h]
  rfl

theorem ofAttribute_list (hany : ¬ IsKeyword value "##any") (hother : ¬ IsKeyword value "##other") :
    ofAttribute value target processing =
      (Text.words value).mapM (spaceOfWord target) >>= fun spaces =>
        .ok (distinct (spaces.map fun s => ⟨.only s, processing⟩)) := by
  unfold ofAttribute
  split
  · rename_i h
    exact absurd (trim_eq_any_iff.mp h) hany
  · rename_i h
    exact absurd (trim_eq_other_iff.mp h) hother
  · rw [Text.words_trim]
    rfl

/-- The wildcards that a value is read as: one for a keyword, or one for each namespace of a
list. -/
inductive ReadsAs (target : Option String) (processing : Processing) (value : String) :
    List Wildcard → Prop
  | any (h : IsKeyword value "##any") : ReadsAs target processing value [⟨.any, processing⟩]
  | other (hany : ¬ IsKeyword value "##any") (h : IsKeyword value "##other") :
    ReadsAs target processing value [⟨.other target, processing⟩]
  | list {spaces : List (Option String)} (hany : ¬ IsKeyword value "##any")
      (hother : ¬ IsKeyword value "##other")
      (h : ∀ space, space ∈ spaces ↔ ∃ word, Lists value word ∧ Names target word space) :
    ReadsAs target processing value (distinct (spaces.map fun s => ⟨.only s, processing⟩))

theorem readsAs_of_ofAttribute (h : ofAttribute value target processing = .ok ws) :
    ReadsAs target processing value ws := by
  by_cases hany : IsKeyword value "##any"
  · rw [ofAttribute_any hany] at h
    obtain rfl := Except.ok.inj h
    exact .any hany
  by_cases hother : IsKeyword value "##other"
  · rw [ofAttribute_other hother] at h
    obtain rfl := Except.ok.inj h
    exact .other hany hother
  · rw [ofAttribute_list hany hother] at h
    obtain ⟨spaces, hspaces, h⟩ := of_bind_eq_ok h
    obtain rfl := Except.ok.inj h
    refine .list hany hother fun space => ?_
    simp only [mem_of_mapM_eq_ok hspaces, Text.mem_words_iff, spaceOfWord_eq_ok_iff, Lists]

/-- **The wildcards allow the names of the namespaces that are denoted.** -/
theorem ReadsAs.allows_iff (h : ReadsAs target processing value ws) (n : Name) :
    (∃ w ∈ ws, w.allows n) ↔ Denotes target value n.space := by
  cases h with
  | any h => exact iff_of_true ⟨_, List.mem_singleton_self _, rfl⟩ (.any h)
  | other hany h =>
    constructor
    · rintro ⟨w, hw, hn⟩
      obtain rfl := List.mem_singleton.mp hw
      exact .other h (bne_iff_ne.mp hn).symm
    · rintro (hk | ⟨-, hne⟩ | ⟨hw, hnames⟩)
      · exact absurd hk hany
      · exact ⟨_, List.mem_singleton_self _, bne_iff_ne.mpr (Ne.symm hne)⟩
      · exact absurd hnames (h.not_names (by simp) hw)
  | list hany hother h =>
    constructor
    · rintro ⟨w, hw, hn⟩
      obtain ⟨space, hspace, rfl⟩ := List.mem_map.mp (mem_distinct.mp hw)
      obtain ⟨word, hword, hnames⟩ := (h space).mp hspace
      obtain rfl : space = n.space := by simpa [allows, Range.contains] using hn
      exact .listed hword hnames
    · rintro (hk | ⟨hk, -⟩ | ⟨hw, hnames⟩)
      · exact absurd hk hany
      · exact absurd hk hother
      · have hmem := (h _).mpr ⟨_, hw, hnames⟩
        exact ⟨_, mem_distinct.mpr (List.mem_map_of_mem hmem), by simp [allows, Range.contains]⟩

/-- **No two of the wildcards overlap.** -/
theorem ReadsAs.pairwise (h : ReadsAs target processing value ws) :
    ws.Pairwise fun v w => Leaf.overlaps none (.wildcard v) (.wildcard w) = false := by
  cases h with
  | any | other => exact List.pairwise_singleton _ _
  | list =>
    refine (nodup_distinct _).imp_of_mem fun hv hw hne => ?_
    obtain ⟨a, -, rfl⟩ := List.mem_map.mp (mem_distinct.mp hv)
    obtain ⟨b, -, rfl⟩ := List.mem_map.mp (mem_distinct.mp hw)
    have hab : a ≠ b := fun h => hne (h ▸ rfl)
    simpa [Leaf.overlaps, Range.overlaps] using hab

/-- The wildcards have the mode of processing that is given. -/
theorem ReadsAs.processing_eq (h : ReadsAs target processing value ws) (hw : w ∈ ws) :
    w.processing = processing := by
  cases h with
  | any | other => rw [List.mem_singleton.mp hw]
  | list =>
    obtain ⟨space, -, rfl⟩ := List.mem_map.mp (mem_distinct.mp hw)
    rfl

/-- **Reading fails for a list with a stray word.** -/
theorem exists_error_iff :
    (∃ f, ofAttribute value target processing = .error f) ↔ IsStrayList value := by
  by_cases hany : IsKeyword value "##any"
  · rw [ofAttribute_any hany]
    exact iff_of_false nofun fun h => h.not_any hany
  by_cases hother : IsKeyword value "##other"
  · rw [ofAttribute_other hother]
    exact iff_of_false nofun fun h => h.not_other hother
  rw [ofAttribute_list hany hother]
  have hwords : (∃ f, (Text.words value).mapM (spaceOfWord target) = .error f) ↔
      ∃ word, Lists value word ∧ IsStray word := by
    simp only [exists_mapM_eq_error_iff, exists_spaceOfWord_eq_error_iff, Text.mem_words_iff, Lists]
  constructor
  · rintro ⟨f, h⟩
    rcases of_bind_eq_error h with h | ⟨_, -, h⟩
    · exact ⟨hany, hother, hwords.mp ⟨f, h⟩⟩
    · exact nomatch h
  · rintro ⟨-, -, hstray⟩
    obtain ⟨f, hf⟩ := hwords.mpr hstray
    exact ⟨f, by rw [hf]; rfl⟩

end Wildcard

end MarkupGrammar
