import PosixC.Foundation.CText

/-! How id of hw05 finds the account of its argument.

A number is looked up among the user IDs and anything else among the names. What
only starts with a number is refused.
-/

set_option autoImplicit false

namespace PosixC.Id

open Foundation CText

structure Passwd where
  pwName : Bytes
  pwUid : UInt32
  deriving DecidableEq, Repr

/-- The user database. A search finds an entry exactly where there is one. -/
structure Users where
  entries : List Passwd
  getpwnam : Bytes → Option Passwd
  getpwuid : UInt32 → Option Passwd
  named : ∀ name entry, getpwnam name = some entry → entry ∈ entries ∧ entry.pwName = name
  unnamed : ∀ name, getpwnam name = none → ∀ entry ∈ entries, entry.pwName ≠ name
  numbered : ∀ uid entry, getpwuid uid = some entry → entry ∈ entries ∧ entry.pwUid = uid
  unnumbered : ∀ uid, getpwuid uid = none → ∀ entry ∈ entries, entry.pwUid ≠ uid

def Users.ofEntries (entries : List Passwd) : Users where
  entries := entries
  getpwnam name := entries.find? fun entry => entry.pwName = name
  getpwuid uid := entries.find? fun entry => entry.pwUid = uid
  named _ _ found := ⟨List.mem_of_find?_eq_some found, by simpa using List.find?_some found⟩
  unnamed _ missing := by simpa using missing
  numbered _ _ found := ⟨List.mem_of_find?_eq_some found, by simpa using List.find?_some found⟩
  unnumbered _ missing := by simpa using missing

def toUid (value : Int) : UInt32 := UInt32.ofNat (value % 4294967296).toNat

/-- The entry that `get_user_info` goes on with, or the message it exits with. -/
def getUserInfo (users : Users) (userName : Bytes) : Except String Passwd :=
  let (value, endp) := strtol10 userName
  let uid := toInt value
  if userName = endp then
    match users.getpwnam userName with
    | none => .error "getpwnam failed\n"
    | some uinfo => .ok uinfo
  else if endp = [] then
    match users.getpwuid (toUid uid) with
    | none => .error "getpwuid failed\n"
    | some uinfo => .ok uinfo
  else .error "Invalid user name / user id\n"

section Lookups

variable {users : Users} {userName blank sign digits rest : Bytes} {value : Int}

def lookedUp (value : Int) : UInt32 := toUid (toInt (saturate value))

theorem lookedUp_exact (above : 0 ≤ value) (below : value < 2 ^ 32) : (lookedUp value).toNat = value := by
  have same : saturate value = value := by
    rw [saturate, if_neg (by unfold longMin; omega), if_neg (by unfold longMax; omega)]
  rw [lookedUp, same, toUid, UInt32.toNat_ofNat']
  unfold toInt
  omega

theorem getUserInfo_number (number : DecimalInteger userName value) :
    getUserInfo users userName = match users.getpwuid (lookedUp value) with
      | none => .error "getpwuid failed\n"
      | some uinfo => .ok uinfo := by
  obtain ⟨blank, sign, digits, decimal, rfl⟩ := number
  have moved : userName ≠ [] := List.ne_nil_of_length_pos decimal.shorter
  simp only [getUserInfo, strtol10_decimal decimal, if_neg moved, if_true, lookedUp]

theorem getUserInfo_mixed (decimal : Decimal userName blank sign digits rest) (more : rest ≠ []) :
    getUserInfo users userName = .error "Invalid user name / user id\n" := by
  have moved : userName ≠ rest := fun same => (same ▸ decimal.shorter).false
  simp only [getUserInfo, strtol10_decimal decimal, if_neg moved, if_neg more]

theorem getUserInfo_name (plain : ∀ blank sign digits rest, ¬ Decimal userName blank sign digits rest) :
    getUserInfo users userName = match users.getpwnam userName with
      | none => .error "getpwnam failed\n"
      | some uinfo => .ok uinfo := by
  have unmoved : (strtol10 userName).2 = userName := by
    by_contra moved
    obtain ⟨blank, sign, digits, decimal⟩ := decimal_of_strtol10 moved
    exact plain blank sign digits _ decimal
  simp only [getUserInfo, unmoved, if_true]

/-- The account of the argument, for a number by its user ID and otherwise by its name. -/
structure Resolves (users : Users) (userName : Bytes) : Prop where
  right : ∀ entry, getUserInfo users userName = .ok entry →
    entry.pwName = userName ∨ DecimalInteger userName entry.pwUid.toNat
  found : (∃ entry ∈ users.entries, entry.pwName = userName) → (¬ ∃ value, DecimalInteger userName value) →
    ∃ entry ∈ users.entries, getUserInfo users userName = .ok entry ∧ entry.pwName = userName

theorem resolves_number_iff (number : DecimalInteger userName value) : Resolves users userName ↔
    (0 ≤ value ∧ value < 2 ^ 32) ∨ ∀ entry, users.getpwuid (lookedUp value) = some entry → entry.pwName = userName := by
  constructor
  · intro resolves
    apply or_iff_not_imp_right.mpr
    intro other
    push Not at other
    obtain ⟨entry, found, differs⟩ := other
    have selected : getUserInfo users userName = .ok entry := by rw [getUserInfo_number number, found]
    have same := decimalInteger_unique number ((resolves.right entry selected).resolve_left differs)
    have bound := entry.pwUid.toNat_lt
    omega
  · intro fits
    refine ⟨fun entry selected => ?_, fun _ other => absurd ⟨value, number⟩ other⟩
    rw [getUserInfo_number number] at selected
    split at selected
    · cases selected
    · next found =>
      cases selected
      rcases fits with ⟨above, below⟩ | same
      · right
        rwa [(users.numbered _ entry found).2, lookedUp_exact above below]
      · exact Or.inl (same entry found)

theorem resolves_mixed_iff (decimal : Decimal userName blank sign digits rest)
    (mixed : ¬ ∃ value, DecimalInteger userName value) :
    Resolves users userName ↔ ∀ entry ∈ users.entries, entry.pwName ≠ userName := by
  have more : rest ≠ [] := by
    rintro rfl
    exact mixed ⟨_, blank, sign, digits, decimal, rfl⟩
  constructor
  · intro resolves entry member same
    obtain ⟨found, _, selected, _⟩ := resolves.found ⟨entry, member, same⟩ mixed
    rw [getUserInfo_mixed decimal more] at selected
    cases selected
  · intro absent
    refine ⟨fun entry selected => ?_, ?_⟩
    · rw [getUserInfo_mixed decimal more] at selected
      cases selected
    · rintro ⟨entry, member, same⟩ _
      exact absurd same (absent entry member)

theorem resolves_name (plain : ∀ blank sign digits rest, ¬ Decimal userName blank sign digits rest) :
    Resolves users userName := by
  have byName := @getUserInfo_name users userName plain
  refine ⟨fun entry selected => ?_, ?_⟩
  · rw [byName] at selected
    split at selected
    · cases selected
    · next found =>
      cases selected
      exact Or.inl (users.named userName entry found).2
  · rintro ⟨entry, member, same⟩ _
    cases found : users.getpwnam userName with
    | none => exact absurd same (users.unnamed userName found entry member)
    | some uinfo =>
      obtain ⟨among, named⟩ := users.named userName uinfo found
      exact ⟨uinfo, among, by rw [byName, found], named⟩

/-- The right account is found unless a number is no user ID and finds another account
for that, or an account has a name that starts with a number without being one. -/
theorem resolves_iff : Resolves users userName ↔
    (∀ value, DecimalInteger userName value → (0 ≤ value ∧ value < 2 ^ 32) ∨
      ∀ entry, users.getpwuid (lookedUp value) = some entry → entry.pwName = userName) ∧
    ((∃ blank sign digits rest, Decimal userName blank sign digits rest) → (¬ ∃ value, DecimalInteger userName value) →
      ∀ entry ∈ users.entries, entry.pwName ≠ userName) := by
  constructor
  · intro resolves
    constructor
    · intro value number
      exact (resolves_number_iff number).mp resolves
    · rintro ⟨blank, sign, digits, rest, decimal⟩ mixed
      exact (resolves_mixed_iff decimal mixed).mp resolves
  · rintro ⟨numbers, mixed⟩
    by_cases integer : ∃ value, DecimalInteger userName value
    · obtain ⟨value, number⟩ := integer
      exact (resolves_number_iff number).mpr (numbers value number)
    · by_cases started : ∃ blank sign digits rest, Decimal userName blank sign digits rest
      · have absent := mixed started integer
        obtain ⟨blank, sign, digits, rest, decimal⟩ := started
        exact (resolves_mixed_iff decimal integer).mpr absent
      · exact resolves_name (by simpa using started)

-- The account `alice` has the user ID 1000.
example : getUserInfo (.ofEntries [⟨[97, 108, 105, 99, 101], 1000⟩]) [32, 49, 48, 48, 48] =
    .ok ⟨[97, 108, 105, 99, 101], 1000⟩ := by decide +kernel

/-- 2³² finds the account `root`, and an account `1a` is not found. -/
theorem resolves_wrong :
    ¬ Resolves (.ofEntries [⟨[114, 111, 111, 116], 0⟩]) [52, 50, 57, 52, 57, 54, 55, 50, 57, 54] ∧
      ¬ Resolves (.ofEntries [⟨[49, 97], 1000⟩]) [49, 97] := by
  constructor
  · intro resolves
    have selected : getUserInfo (.ofEntries [⟨[114, 111, 111, 116], 0⟩]) [52, 50, 57, 52, 57, 54, 55, 50, 57, 54] =
        .ok ⟨[114, 111, 111, 116], 0⟩ := by decide +kernel
    have number : DecimalInteger [52, 50, 57, 52, 57, 54, 55, 50, 57, 54] 4294967296 :=
      ⟨[], [], [52, 50, 57, 52, 57, 54, 55, 50, 57, 54],
        ⟨rfl, by simp, Or.inl rfl, List.cons_ne_nil _ _, by simp [isdigit], by simp⟩, rfl⟩
    rcases resolves.right _ selected with same | zero
    · cases same
    · cases decimalInteger_unique number zero
  · intro resolves
    have mixed : ¬ ∃ value, DecimalInteger [49, 97] value := by
      rintro ⟨value, blank, sign, digits, decimal, _⟩
      cases congrArg Prod.snd (strtol10_decimal decimal)
    obtain ⟨entry, _, selected, _⟩ := resolves.found ⟨_, List.mem_singleton_self _, rfl⟩ mixed
    have refused : getUserInfo (.ofEntries [⟨[49, 97], 1000⟩]) [49, 97] = .error "Invalid user name / user id\n" := by
      decide +kernel
    rw [refused] at selected
    cases selected

end Lookups
end PosixC.Id
