import Mathlib
import RowStore.Settings
import RowStore.Proofs.Text.Number

namespace RowStore

namespace SyncStrategy

variable {text : String} {strategy : SyncStrategy}

/-- The word `always`, each letter of it small or capital. -/
def IsAlways (text : String) : Prop :=
  List.Forall₂ (fun char letter => char = letter ∨ char = letter.toUpper)
    text.toList "always".toList

/-- What a text says about synchronisation: to wait for no write, or for so many. -/
inductive Denotes (text : String) : SyncStrategy → Prop
  | always (word : IsAlways text) : Denotes text .everyWrite
  | one (number : Text.Denotes text 1) : Denotes text .everyWrite
  | several {count : Nat} (number : Text.Denotes text count) (several : 2 ≤ count) :
      Denotes text (.everyEntries count)

/-- A text that is the word or a number other than zero. -/
def IsStrategy (text : String) : Prop :=
  IsAlways text ∨ ∃ number, Text.Denotes text number ∧ number ≠ 0

theorem toLower_eq_iff {letter : Char} (small : letter.isLower) (char : Char) :
    char.toLower = letter ↔ char = letter ∨ char = letter.toUpper := by
  have same : letter.toLower = letter :=
    Char.toLower_eq_of_not_isUpper (Char.not_isUpper_of_isLower small)
  constructor
  · intro lowered
    by_cases charSmall : char.isLower
    · left
      rw [← lowered, Char.toLower_eq_of_not_isUpper (Char.not_isUpper_of_isLower charSmall)]
    · right
      rw [← lowered, Char.toUpper_toLower_eq_toUpper, Char.toUpper_eq_of_not_isLower charSmall]
  · rintro (rfl | rfl)
    · exact same
    · rw [Char.toLower_toUpper_eq_toLower, same]

theorem map_toLower_eq_iff {word : List Char} (small : ∀ letter ∈ word, letter.isLower)
    (chars : List Char) :
    chars.map Char.toLower = word ↔
      List.Forall₂ (fun char letter => char = letter ∨ char = letter.toUpper) chars word := by
  induction word generalizing chars with
  | nil => simp
  | cons letter rest ih =>
      obtain ⟨letterSmall, restSmall⟩ := List.forall_mem_cons.mp small
      cases chars with
      | nil => simp
      | cons char others =>
          rw [List.map_cons, List.cons.injEq, toLower_eq_iff letterSmall, ih restSmall,
            List.forall₂_cons]

theorem equalIgnoringCase_always_iff :
    equalIgnoringCase text "always" = true ↔ IsAlways text := by
  have word : "always".toList.map Char.toLower = "always".toList := rfl
  rw [equalIgnoringCase, word, decide_eq_true_iff, map_toLower_eq_iff (by simp), IsAlways]

/-- A word does not begin as a number does. -/
theorem IsAlways.not_number {number : Nat} (word : IsAlways text) :
    ¬ Text.Denotes text number := by
  rintro ⟨digits, written, decimal⟩
  rw [IsAlways] at word
  obtain ⟨char, rest, first, others, textEq⟩ := List.forall₂_cons_right_iff.mp word
  have firstLetter : char = 'a' ∨ char = 'A' := first
  have notDigit : ¬ Text.IsDigit char := by
    unfold Text.IsDigit
    rcases firstLetter with rfl | rfl <;> decide
  rcases written with same | signed
  · exact notDigit (decimal.isDigit char (by rw [← same, textEq]; exact List.mem_cons_self))
  · rw [textEq] at signed
    rcases firstLetter with rfl | rfl <;> cases signed

theorem parse_eq_ok_iff : parse text = .ok strategy ↔ Denotes text strategy := by
  rw [parse]
  by_cases word : equalIgnoringCase text "always" = true
  · rw [if_pos word]
    have word := equalIgnoringCase_always_iff.mp word
    constructor
    · rintro ⟨⟩
      exact .always word
    · rintro (_ | number | ⟨number, _⟩)
      · rfl
      · exact absurd number word.not_number
      · exact absurd number word.not_number
  · rw [if_neg word]
    have noWord := mt equalIgnoringCase_always_iff.mpr word
    cases parsed : Text.parseNumber text with
    | error fault =>
        have noNumber (number : Nat) : ¬ Text.Denotes text number := fun denoted => by
          cases parsed.symm.trans (Text.parseNumber_eq_ok_iff.mpr denoted)
        constructor
        · rintro ⟨⟩
        · rintro (word | number | ⟨number, _⟩)
          · exact absurd word noWord
          · exact absurd number (noNumber _)
          · exact absurd number (noNumber _)
    | ok number =>
        have denoted := Text.parseNumber_eq_ok_iff.mp parsed
        constructor
        · intro made
          match number with
          | 0 => cases made
          | 1 =>
              cases made
              exact .one denoted
          | count + 2 =>
              cases made
              exact .several denoted (by omega)
        · rintro (word | one | ⟨count, several⟩)
          · exact absurd word noWord
          · obtain rfl := denoted.unique one
            rfl
          · obtain rfl := denoted.unique count
            match number, several with
            | count + 2, _ => rfl

theorem exists_denotes_iff : (∃ strategy, Denotes text strategy) ↔ IsStrategy text := by
  constructor
  · rintro ⟨_, word | one | ⟨number, several⟩⟩
    · exact .inl word
    · exact .inr ⟨1, one, by decide⟩
    · exact .inr ⟨_, number, by omega⟩
  · rintro (word | ⟨number, denoted, notZero⟩)
    · exact ⟨_, .always word⟩
    · by_cases one : number = 1
      · exact ⟨_, .one (one ▸ denoted)⟩
      · exact ⟨_, .several denoted (by omega)⟩

theorem Denotes.two_le {count : Nat} (denoted : Denotes text (.everyEntries count)) :
    2 ≤ count := by
  cases denoted with
  | several _ several => exact several

end SyncStrategy

namespace Properties

variable {Value : Type} {properties : Properties} {key : String} {default value : Value}
  {denotes : String → Value → Prop} {parse : String → Except ValueFault Value} {fault : Fault}

/-- Where a map has a text for a key, the text is of this kind. -/
def Admits (properties : Properties) (key : String) (kind : String → Prop) : Prop :=
  ∀ text, properties.get? key = some text → kind text

/-- What a map says about a key: the default where it has no text for it, and otherwise what the
text denotes. -/
def Gives (properties : Properties) (key : String) (default : Value)
    (denotes : String → Value → Prop) (value : Value) : Prop :=
  match properties.get? key with
  | none => value = default
  | some text => denotes text value

theorem exists_gives_iff :
    (∃ value, properties.Gives key default denotes value) ↔
      properties.Admits key fun text => ∃ value, denotes text value := by
  unfold Gives Admits
  cases properties.get? key with
  | none => simp
  | some text => simp

theorem parseD_eq_ok_iff (accepts : ∀ text value, parse text = .ok value ↔ denotes text value) :
    properties.parseD key default parse = .ok value ↔
      properties.Gives key default denotes value := by
  cases given : properties.get? key with
  | none =>
      simp only [parseD, Gives, given, Except.ok.injEq]
      exact eq_comm
  | some text =>
      simp only [parseD, Gives, given, ← accepts]
      cases parse text <;> simp

theorem parseD_eq_error (accepts : ∀ text value, parse text = .ok value ↔ denotes text value)
    (failed : properties.parseD key default parse = .error fault) :
    ∃ text reason, properties.get? key = some text ∧ (¬ ∃ value, denotes text value) ∧
      fault = .config (.invalidValue text key reason) := by
  unfold parseD at failed
  cases given : properties.get? key with
  | none =>
      rw [given] at failed
      cases failed
  | some text =>
      rw [given] at failed
      cases parsed : parse text with
      | ok value => simp [parsed] at failed
      | error reason =>
          refine ⟨text, reason, rfl, ?_, by simpa [parsed] using failed.symm⟩
          rintro ⟨value, denoted⟩
          cases parsed.symm.trans ((accepts text value).mpr denoted)

theorem mapError_eq_ok_iff {Source Target : Type} {result : Except Source Value}
    {render : Source → Target} : result.mapError render = .ok value ↔ result = .ok value := by
  cases result <;> simp [Except.mapError]

theorem number_accepts (text : String) (number : Nat) :
    (Text.parseNumber text).mapError ValueFault.number = .ok number ↔ Text.Denotes text number :=
  mapError_eq_ok_iff.trans Text.parseNumber_eq_ok_iff

theorem strategy_accepts (text : String) (strategy : SyncStrategy) :
    (SyncStrategy.parse text).mapError ValueFault.sync = .ok strategy ↔
      SyncStrategy.Denotes text strategy :=
  mapError_eq_ok_iff.trans SyncStrategy.parse_eq_ok_iff

end Properties

namespace Settings

variable {properties : Properties} {settings : Settings} {fault : Fault}

def IsNumeral (text : String) : Prop := ∃ number, Text.Denotes text number

/-- Each property that settings are read from is in its grammar, where it is there. -/
structure Readable (properties : Properties) : Prop where
  poolSize : properties.Admits poolSizeKey IsNumeral
  strategy : properties.Admits strategyKey SyncStrategy.IsStrategy
  fieldCount : properties.Admits fieldCountKey IsNumeral

/-- The settings hold what the properties denote. -/
structure DescribedBy (settings : Settings) (properties : Properties) : Prop where
  path : ∀ path, settings.path = some path ↔ properties.get? pathKey = some path ∧ path ≠ ""
  poolSize : properties.Gives poolSizeKey 134217728 Text.Denotes settings.poolSize
  strategy :
    properties.Gives strategyKey (.everyEntries 100) SyncStrategy.Denotes settings.strategy
  fieldCount : properties.Gives fieldCountKey 10 Text.Denotes settings.fieldCount

/-- A fault of the first property that is not in its grammar, those before it being in theirs. -/
inductive FirstUnreadable (properties : Properties) : Fault → Prop
  | poolSize {text : String} {reason : ValueFault}
      (given : properties.get? poolSizeKey = some text) (unreadable : ¬ IsNumeral text) :
      FirstUnreadable properties (.config (.invalidValue text poolSizeKey reason))
  | strategy {text : String} {reason : ValueFault}
      (poolSize : properties.Admits poolSizeKey IsNumeral)
      (given : properties.get? strategyKey = some text)
      (unreadable : ¬ SyncStrategy.IsStrategy text) :
      FirstUnreadable properties (.config (.invalidValue text strategyKey reason))
  | fieldCount {text : String} {reason : ValueFault}
      (poolSize : properties.Admits poolSizeKey IsNumeral)
      (strategy : properties.Admits strategyKey SyncStrategy.IsStrategy)
      (given : properties.get? fieldCountKey = some text) (unreadable : ¬ IsNumeral text) :
      FirstUnreadable properties (.config (.invalidValue text fieldCountKey reason))

theorem admits_isStrategy_iff :
    properties.Admits strategyKey SyncStrategy.IsStrategy ↔
      properties.Admits strategyKey fun text => ∃ strategy, SyncStrategy.Denotes text strategy := by
  simp only [Properties.Admits, SyncStrategy.exists_denotes_iff]

theorem DescribedBy.readable (described : settings.DescribedBy properties) :
    Readable properties where
  poolSize := Properties.exists_gives_iff.mp ⟨_, described.poolSize⟩
  strategy := admits_isStrategy_iff.mpr (Properties.exists_gives_iff.mp ⟨_, described.strategy⟩)
  fieldCount := Properties.exists_gives_iff.mp ⟨_, described.fieldCount⟩

/-- Reading a map either gives the settings it describes or reports the first of its faults. -/
theorem ofProperties_cases (properties : Properties) :
    (∃ settings, ofProperties properties = .ok settings ∧ settings.DescribedBy properties) ∨
      ∃ fault, ofProperties properties = .error fault ∧ FirstUnreadable properties fault := by
  have inOrder : ofProperties properties = (do
      let poolSize ← properties.numberD poolSizeKey 134217728
      let strategy ← properties.strategyD strategyKey (.everyEntries 100)
      let fieldCount ← properties.numberD fieldCountKey 10
      return { path := (properties.get? pathKey).filter (· ≠ ""), poolSize, strategy,
               fieldCount }) := rfl
  cases poolRead : properties.numberD poolSizeKey 134217728 with
  | error fault =>
      obtain ⟨text, reason, given, unreadable, rfl⟩ :=
        Properties.parseD_eq_error Properties.number_accepts poolRead
      exact .inr ⟨_, by rw [inOrder, poolRead]; rfl, .poolSize given unreadable⟩
  | ok poolSize =>
      have poolGiven := (Properties.parseD_eq_ok_iff Properties.number_accepts).mp poolRead
      have poolReadable := Properties.exists_gives_iff.mp ⟨_, poolGiven⟩
      cases strategyRead : properties.strategyD strategyKey (.everyEntries 100) with
      | error fault =>
          obtain ⟨text, reason, given, unreadable, rfl⟩ :=
            Properties.parseD_eq_error Properties.strategy_accepts strategyRead
          rw [SyncStrategy.exists_denotes_iff] at unreadable
          exact .inr ⟨_, by rw [inOrder, poolRead, strategyRead]; rfl,
            .strategy poolReadable given unreadable⟩
      | ok strategy =>
          have strategyGiven :=
            (Properties.parseD_eq_ok_iff Properties.strategy_accepts).mp strategyRead
          have strategyReadable :=
            admits_isStrategy_iff.mpr (Properties.exists_gives_iff.mp ⟨_, strategyGiven⟩)
          cases fieldRead : properties.numberD fieldCountKey 10 with
          | error fault =>
              obtain ⟨text, reason, given, unreadable, rfl⟩ :=
                Properties.parseD_eq_error Properties.number_accepts fieldRead
              exact .inr ⟨_, by rw [inOrder, poolRead, strategyRead, fieldRead]; rfl,
                .fieldCount poolReadable strategyReadable given unreadable⟩
          | ok fieldCount =>
              have fieldGiven :=
                (Properties.parseD_eq_ok_iff Properties.number_accepts).mp fieldRead
              exact .inl ⟨_, by rw [inOrder, poolRead, strategyRead, fieldRead]; rfl,
                by simp [Option.filter_eq_some_iff], poolGiven, strategyGiven, fieldGiven⟩

theorem FirstUnreadable.not_readable (first : FirstUnreadable properties fault) :
    ¬ Readable properties := by
  intro readable
  cases first with
  | poolSize given unreadable => exact unreadable (readable.poolSize _ given)
  | strategy _ given unreadable => exact unreadable (readable.strategy _ given)
  | fieldCount _ _ given unreadable => exact unreadable (readable.fieldCount _ given)

theorem DescribedBy.path_eq_none_iff (described : settings.DescribedBy properties) :
    settings.path = none ↔ properties.get? pathKey = none ∨ properties.get? pathKey = some "" := by
  rw [Option.eq_none_iff_forall_ne_some]
  simp only [ne_eq, described.path]
  cases properties.get? pathKey <;> simp

theorem DescribedBy.two_le {count : Nat} (described : settings.DescribedBy properties)
    (several : settings.strategy = .everyEntries count) : 2 ≤ count := by
  have given := described.strategy
  rw [several] at given
  unfold Properties.Gives at given
  split at given
  · cases given
    decide
  · exact given.two_le

/-- A map is accepted if it is readable, and the settings are then what it describes, with an
interval of two writes at least if the strategy has one. It is refused otherwise, for the first
property in the order pool size, strategy, field count that is not in its grammar. -/
theorem ofProperties_accepts_exactly (properties : Properties) :
    ((∃ settings, ofProperties properties = .ok settings) ↔ Readable properties) ∧
    (∀ settings, ofProperties properties = .ok settings →
      settings.DescribedBy properties ∧
      (settings.path = none ↔
        properties.get? pathKey = none ∨ properties.get? pathKey = some "") ∧
      ∀ count, settings.strategy = .everyEntries count → 2 ≤ count) ∧
    ∀ fault, ofProperties properties = .error fault → FirstUnreadable properties fault := by
  rcases ofProperties_cases properties with ⟨settings, made, described⟩ | ⟨fault, failed, first⟩
  · rw [made]
    refine ⟨⟨fun _ => described.readable, fun _ => ⟨settings, rfl⟩⟩, ?_, ?_⟩
    · rintro _ ⟨⟩
      exact ⟨described, described.path_eq_none_iff, fun _ => described.two_le⟩
    · rintro _ ⟨⟩
  · rw [failed]
    refine ⟨⟨?_, fun readable => absurd readable first.not_readable⟩, ?_, ?_⟩
    · rintro ⟨_, ⟨⟩⟩
    · rintro _ ⟨⟩
    · rintro _ ⟨⟩
      exact first

end Settings

end RowStore
