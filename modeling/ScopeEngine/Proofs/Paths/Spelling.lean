import ScopeEngine.Proofs.Arguments.Slots
import ScopeEngine.Resolution.Names

/-! Spellings of a path. Texts that differ only in the case of ASCII letters are cut at the same dots, lose the same blanks
and give keys that no scope can tell apart, positional ones included. -/

namespace ScopeEngine

namespace Text

variable (text : String) (c : Char)

def lower (text : String) : String :=
  String.ofList (text.toList.map Char.toLower)

theorem toLower_cases : c.toLower = c ∨ ∃ n : Fin 26, c = Char.ofNat (65 + n) := by
  by_cases capital : 65 ≤ c.val ∧ c.val ≤ 90
  · right
    have least : 65 ≤ c.toNat := capital.1
    have most : c.toNat ≤ 90 := capital.2
    refine ⟨⟨c.toNat - 65, by omega⟩, ?_⟩
    have code : 65 + (c.toNat - 65) = c.toNat := by omega
    rw [code, Char.ofNat_toNat]
  · left
    exact dif_neg capital

/-- What does not tell the 26 capitals from their lower case does not look at the case at all. -/
theorem toLower_blind {β : Type} (view : Char → β)
    (blind : ∀ n : Fin 26, view (Char.ofNat (65 + n)).toLower = view (Char.ofNat (65 + n))) (c : Char) :
    view c.toLower = view c := by
  rcases toLower_cases c with same | ⟨n, rfl⟩
  · rw [same]
  · exact blind n

@[simp] theorem isBlank_toLower : isBlank c.toLower = isBlank c :=
  toLower_blind isBlank (by decide) c

@[simp] theorem isDigit_toLower : c.toLower.isDigit = c.isDigit :=
  toLower_blind Char.isDigit (by decide) c

@[simp] theorem upperChar_toLower : upperChar c.toLower = upperChar c :=
  toLower_blind upperChar (by decide) c

theorem isDot_toLower : decide (c.toLower = '.') = decide (c = '.') :=
  toLower_blind (fun c => decide (c = '.')) (by decide) c

theorem toLower_of_isDigit {c : Char} (digit : c.isDigit = true) : c.toLower = c := by
  rcases toLower_cases c with same | ⟨n, rfl⟩
  · exact same
  · revert digit n
    decide

theorem upper_lower : upper (lower text) = upper text := by
  simp only [upper, lower, String.toList_ofList, List.flatMap_map, upperChar_toLower]

theorem dropBlanks_lower (text : List Char) :
    (text.map Char.toLower).dropWhile isBlank = (text.dropWhile isBlank).map Char.toLower := by
  have same : isBlank ∘ Char.toLower = isBlank := funext isBlank_toLower
  rw [List.dropWhile_map, same]

theorem trim_lower : trim (lower text) = lower (trim text) := by
  simp only [trim, lower, String.toList_ofList, dropBlanks_lower, ← List.map_reverse]

end Text

namespace Key

variable (name : String) {key other : Key}

theorem shortNumber?_lower : shortNumber? (Text.lower name) = shortNumber? name := by
  simp only [shortNumber?, Text.lower, String.toList_ofList, List.length_map, List.all_map, Function.comp_def,
    Text.isDigit_toLower]
  split
  next short =>
    have digits : name.toList.map Char.toLower = name.toList.map id :=
      List.map_congr_left fun c member => Text.toLower_of_isDigit (List.all_eq_true.mp short.2.2 c member)
    rw [digits, List.map_id]
  next => rfl

structure Alike (key other : Key) : Prop where
  same : (key == other) = true
  number : key.number = other.number

theorem Alike.symm (alike : key.Alike other) : other.Alike key :=
  ⟨BEq.symm alike.same, alike.number.symm⟩

theorem alike_lower : (Key.of (Text.lower name)).Alike (.of name) := by
  simp only [Key.of, shortNumber?_lower]
  split
  · exact ⟨BEq.refl _, rfl⟩
  · exact ⟨beq_iff.mpr (Text.upper_lower name), rfl⟩

theorem alike_of_lower {name other : String} (spelled : Text.lower other = Text.lower name) :
    (Key.of other).Alike (.of name) := by
  have first := (alike_lower other).symm
  have second := alike_lower name
  rw [spelled] at first
  exact ⟨BEq.trans first.same second.same, first.number.trans second.number⟩

theorem Alike.scopeName? (alike : key.Alike other) : key.scopeName? = other.scopeName? := by
  have blind : (fun name : ScopeName => name.key == key) = fun name => name.key == other :=
    funext fun _ => BEq.congr_right alike.same
  rw [Key.scopeName?, blind, Key.scopeName?]

theorem Alike.isScopeName (alike : key.Alike other) : key.isScopeName = other.isScopeName := by
  rw [Key.isScopeName, alike.scopeName?, Key.isScopeName]

end Key

namespace Scope

variable (scope : Scope) {key other : Key}

theorem entryAt?_alike (alike : key.Alike other) :
    scope.entryAt? key = scope.entryAt? other := by
  rw [entryAt?, alike.number, entryAt?]

theorem get_alike (alike : key.Alike other) : scope.get key = scope.get other :=
  get_congr alike.same (scope.entryAt?_alike alike)

end Scope

theorem cutAtDots_lower (text : List Char) : cutAtDots (text.map Char.toLower) =
    ((cutAtDots text).1.map Char.toLower, (cutAtDots text).2.map (List.map Char.toLower)) := by
  induction text with
  | nil => rfl
  | cons c rest ih =>
    have dot : (c.toLower = '.') = (c = '.') := propext (decide_eq_decide.mp (Text.isDot_toLower c))
    simp only [List.map_cons, cutAtDots, ih, dot]
    split <;> rfl

theorem lower_isEmpty (text : String) : (Text.lower text).isEmpty = text.isEmpty := by
  rw [Bool.eq_iff_iff, String.isEmpty_iff, String.isEmpty_iff, ← String.toList_eq_nil_iff, ← String.toList_eq_nil_iff,
    Text.lower, String.toList_ofList, List.map_eq_nil_iff]

theorem pathSegments_lower (path : String) : pathSegments (Text.lower path) = (pathSegments path).map Text.lower := by
  have part : ∀ part : List Char, Text.trim (String.ofList (part.map Char.toLower)) =
      Text.lower (Text.trim (String.ofList part)) := by
    intro part
    rw [← Text.trim_lower, Text.lower, String.toList_ofList]
  simp only [pathSegments, Text.lower, String.toList_ofList, cutAtDots_lower, List.map_cons, List.map_map, part,
    Function.comp_def]

theorem splitPath_spelling {path spelling : String} {segments : List String} (split : splitPath path = .ok segments)
    (spelled : Text.lower spelling = Text.lower path) :
    ∃ others, splitPath spelling = .ok others ∧ others.map Text.lower = segments.map Text.lower := by
  have alike : (pathSegments spelling).map Text.lower = (pathSegments path).map Text.lower := by
    rw [← pathSegments_lower, ← pathSegments_lower, spelled]
  have emptiness : ∀ segments : List String,
      segments.any String.isEmpty = (segments.map Text.lower).any String.isEmpty := by
    intro segments
    simp only [List.any_map, Function.comp_def, lower_isEmpty]
  have empty : (pathSegments spelling).any String.isEmpty = (pathSegments path).any String.isEmpty := by
    rw [emptiness, alike, ← emptiness]
  simp only [splitPath, empty] at split ⊢
  split at split
  next => cases split
  next full =>
    cases split
    exact ⟨_, if_neg full, alike⟩

end ScopeEngine
