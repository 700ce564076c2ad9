import PosixC.Foundation.CPrint
import PosixC.Foundation.SizeT
import PosixC.Id.Users

/-! What id of hw05 prints about its own process.

The IDs and the names are collected first, and the options choose among them
when they are printed. A use of a missing entry of a database ends the process.
-/

set_option autoImplicit false

namespace PosixC.Id

open Foundation CText

section Model

/-- An entry of the group database. A `gid_t` has 32 bits. -/
structure Group where
  grName : Bytes
  grGid : UInt32
  deriving DecidableEq, Repr

structure Groups where
  getgrgid : UInt32 → Option Group
  numbered : ∀ gid entry, getgrgid gid = some entry → entry.grGid = gid

def Groups.ofEntries (entries : List Group) : Groups where
  getgrgid gid := entries.find? fun entry => entry.grGid = gid
  numbered _ _ found := by simpa using List.find?_some found

structure Credentials where
  ruid : UInt32
  euid : UInt32
  rgid : UInt32
  egid : UInt32
  groups : List UInt32

structure System where
  users : Users
  groups : Groups
  credentials : Credentials

structure Memory where
  groupName : Bool
  groupsIds : Bool
  groupsData : Bool
  name : Nat → Bool

def Memory.ample : Memory := ⟨true, true, true, fun _ => true⟩

structure ProgramOptions where
  group : Bool
  groups : Bool
  name : Bool
  real : Bool
  user : Bool
  deriving DecidableEq, Repr

def ProgramOptions.chosen (options : ProgramOptions) : Nat :=
  options.group.toNat + options.groups.toNat + options.user.toNat

/-- The options `main` goes on with, or the message it returns after. -/
def acceptOptions (options : ProgramOptions) : Except String ProgramOptions :=
  if 1 < options.chosen then .error "You can't set parameters -u, -g, -G in parallel\n"
  else if options.chosen = 0 ∧ (options.real || options.name) = true then
    .error "Can't use name or real ID in default mode\n"
  else .ok options

theorem acceptOptions_single {options : ProgramOptions} (one : options.chosen = 1) : acceptOptions options = .ok options := by
  rw [acceptOptions, if_neg (by omega), if_neg (by omega)]

structure NameId where
  real : UInt32
  effective : UInt32
  name : Option Bytes
  deriving DecidableEq, Repr

def NameId.zero : NameId := ⟨0, 0, none⟩

structure IdData where
  userData : NameId
  groupData : NameId
  groupsData : List NameId

inductive Failure where
  | exit (message : String)
  | segfault
  deriving DecidableEq, Repr

/-- `%d` takes the unsigned ID for an `int`. -/
def printId (id : UInt32) : Bytes := decimal (toInt id.toNat)

/-- `%s` with a null pointer does not fail in glibc. -/
def printName (name : Option Bytes) : Bytes := name.getD (literal "(null)")

def properPrint (effective real : UInt32) (name : Option Bytes) (options : ProgramOptions) : Bytes :=
  if options.name then printName name else if options.real then printId real else printId effective

def printEntry (options : ProgramOptions) (entry : NameId) : Bytes :=
  properPrint entry.effective entry.real entry.name options

def printBoth (id : UInt32) (name : Bytes) : Bytes := printId id ++ literal "(" ++ name ++ literal ")"

/-- The loop before the last group, `none` where it reads past the array. -/
def printFront (groupsData : List NameId) (length : Nat) (item : NameId → Bytes) : Option (List Bytes) :=
  (List.range (SizeT.sub length 1)).mapM fun i => groupsData[i]?.map item

def printGroups (groupsData : List NameId) (length : Nat) (front last : NameId → Bytes) : Except Failure Bytes :=
  match printFront groupsData length front, groupsData[SizeT.sub length 1]? with
  | some items, some entry => .ok (items.flatten ++ last entry)
  | _, _ => .error .segfault

def printData (users : Users) (data : IdData) (length : Nat) (options : ProgramOptions) : Except Failure Bytes :=
  if options.chosen = 0 then
    let ids := literal "uid=" ++ printBoth data.userData.real (printName data.userData.name) ++ literal " " ++
      literal "gid=" ++ printBoth data.groupData.real (printName data.groupData.name) ++ literal " "
    let euid :=
      if data.userData.real ≠ data.userData.effective then
        let eid := users.getpwuid data.userData.effective
        literal "euid=" ++ printBoth data.userData.effective ((eid.map Passwd.pwName).getD []) ++ literal " "
      else []
    match printGroups data.groupsData length
        (fun entry => printBoth entry.real (printName entry.name) ++ literal ", ")
        (fun entry => printBoth entry.effective (printName entry.name)) with
    | .ok groups => .ok (ids ++ euid ++ literal "groups=" ++ groups ++ [newline])
    | .error failure => .error failure
  else
    let user := if options.user then printEntry options data.userData else []
    let group := if options.group then printEntry options data.groupData else []
    if options.groups then
      match printGroups data.groupsData length (fun entry => printEntry options entry ++ literal " ")
          (printEntry options) with
      | .ok groups => .ok (user ++ group ++ groups ++ [newline])
      | .error failure => .error failure
    else .ok (user ++ group ++ [newline])

def strdup (available : Bool) (text : Bytes) : Option Bytes := if available then some text else none

/-- One turn of the loop over the groups. The entry is used without a test for NULL,
and the copy of its name is not tested either. -/
def groupEntry (memory : Memory) (groups : Groups) (lost : Bool) (gid : UInt32) (i : Nat) : Except Failure NameId :=
  let gsinfo := groups.getgrgid gid
  let name := gsinfo.bind fun entry => strdup (memory.name i) entry.grName
  if lost then .error (.exit "group data malloc failed")
  else
    match gsinfo with
    | none => .error .segfault
    | some entry => .ok ⟨entry.grGid, entry.grGid, name⟩

/-- The supplementary groups, and the effective one if it is not found among them. -/
def groupsIds (credentials : Credentials) : List UInt32 :=
  let found := credentials.groups.any fun gid => gid == credentials.egid
  if found then credentials.groups else credentials.groups ++ [credentials.egid]

def getProcessInfo (memory : Memory) (system : System) (options : ProgramOptions) : Except Failure Bytes :=
  let credentials := system.credentials
  let uinfo := system.users.getpwuid credentials.ruid
  let userData : NameId := ⟨credentials.ruid, credentials.euid, uinfo.map Passwd.pwName⟩
  let ginfo := system.groups.getgrgid credentials.rgid
  let name := ginfo.bind fun entry => strdup memory.groupName entry.grName
  let lost := ginfo.isSome && name.isNone
  let groupData : NameId := ⟨credentials.rgid, credentials.egid, name⟩
  if lost then .error (.exit "group data malloc failed")
  else if memory.groupsIds = false then .error (.exit "groups_ids malloc failed")
  else if memory.groupsData = false then .error (.exit "groups_data malloc failed")
  else
    let ids := groupsIds credentials
    match ids.zipIdx.mapM fun (gid, i) => groupEntry memory system.groups lost gid i with
    | .error failure => .error failure
    | .ok entries =>
        printData system.users ⟨userData, groupData, entries ++ [.zero]⟩ ids.length options

end Model

section Printing

variable {α β ε : Type} {options : ProgramOptions} {entries : List NameId}

theorem mapM_succeeds {m : Type → Type} [Monad m] [LawfulMonad m] {f : α → m β} {g : α → β} {inputs : List α}
    (succeeds : ∀ input ∈ inputs, f input = pure (g input)) : inputs.mapM f = pure (inputs.map g) := by
  induction inputs with
  | nil => rfl
  | cons first rest ih =>
    rw [List.mapM_cons, succeeds first List.mem_cons_self, pure_bind,
      ih fun input member => succeeds input (List.mem_cons_of_mem _ member), pure_bind, List.map_cons]

theorem mapM_fails {f : α → Except ε β} {failure : ε} {inputs : List α} {failing : α} (member : failing ∈ inputs)
    (fails : f failing = .error failure) (same : ∀ input ∈ inputs, ∀ other, f input = .error other → other = failure) :
    inputs.mapM f = .error failure := by
  induction inputs with
  | nil => cases member
  | cons first rest ih =>
    rw [List.mapM_cons]
    cases head : f first with
    | error other =>
      rw [same first List.mem_cons_self other head]
      rfl
    | ok value =>
      rcases List.mem_cons.mp member with rfl | later
      · rw [fails] at head
        cases head
      · rw [ih later fun input member => same input (List.mem_cons_of_mem _ member)]
        rfl

def line (items : List Bytes) : Bytes := [32].intercalate items ++ [newline]

theorem printFront_eq (last : NameId) (rest : List NameId) (item : NameId → Bytes) :
    printFront (entries ++ last :: rest) (entries.length + 1) item = some (entries.map item) := by
  rw [printFront, SizeT.sub_exact (by omega), Nat.add_sub_cancel]
  have read : ∀ i ∈ List.range entries.length,
      (entries ++ last :: rest)[i]?.map item = pure (entries.map item)[i]! := by
    intro i member
    have inside := List.mem_range.mp member
    simp [List.getElem?_append_left inside, List.getElem?_eq_getElem inside]
  rw [mapM_succeeds read]
  congr 1
  apply List.ext_getElem (by simp)
  intro i below below'
  simp only [List.length_map] at below'
  simp [below']

theorem printGroups_eq (filled : entries ≠ []) (rest : List NameId) (gap : Bytes) (item : NameId → Bytes) :
    printGroups (entries ++ rest) entries.length (fun entry => item entry ++ gap) item =
      .ok (gap.intercalate (entries.map item)) := by
  obtain ⟨init, last, rfl⟩ := List.eq_nil_or_concat entries |>.resolve_left filled
  have lastRead : (init ++ [last] ++ rest)[SizeT.sub (init ++ [last]).length 1]? = some last := by
    rw [SizeT.sub_exact (by simp)]
    simp
  rw [List.concat_eq_append, printGroups, lastRead, List.append_assoc, List.singleton_append, List.length_append,
    List.length_singleton, printFront_eq, List.map_append, List.map_singleton, intercalate_concat, List.flatMap_map,
    List.flatMap_def]

variable {users : Users} {data : IdData} {length : Nat}

theorem ProgramOptions.only_user (user : options.user = true) (one : options.chosen = 1) :
    options.group = false ∧ options.groups = false := by
  rw [chosen, user, Bool.toNat_true] at one
  exact ⟨Bool.toNat_eq_zero.mp (by omega), Bool.toNat_eq_zero.mp (by omega)⟩

theorem ProgramOptions.only_group (group : options.group = true) (one : options.chosen = 1) :
    options.user = false ∧ options.groups = false := by
  rw [chosen, group, Bool.toNat_true] at one
  exact ⟨Bool.toNat_eq_zero.mp (by omega), Bool.toNat_eq_zero.mp (by omega)⟩

theorem ProgramOptions.only_groups (groups : options.groups = true) (one : options.chosen = 1) :
    options.user = false ∧ options.group = false := by
  rw [chosen, groups, Bool.toNat_true] at one
  exact ⟨Bool.toNat_eq_zero.mp (by omega), Bool.toNat_eq_zero.mp (by omega)⟩

theorem printData_user (user : options.user = true) (one : options.chosen = 1) :
    printData users data length options = .ok (line [printEntry options data.userData]) := by
  obtain ⟨group, groups⟩ := ProgramOptions.only_user user one
  simp [printData, one, user, group, groups, line]

theorem printData_group (group : options.group = true) (one : options.chosen = 1) :
    printData users data length options = .ok (line [printEntry options data.groupData]) := by
  obtain ⟨user, groups⟩ := ProgramOptions.only_group group one
  simp [printData, one, user, group, groups, line]

theorem printData_groups (groups : options.groups = true) (one : options.chosen = 1) (filled : entries ≠ [])
    {rest : List NameId} (array : data.groupsData = entries ++ rest) (count : length = entries.length) :
    printData users data length options = .ok (line (entries.map (printEntry options))) := by
  obtain ⟨user, group⟩ := ProgramOptions.only_groups groups one
  have printed := printGroups_eq filled rest (literal " ") (printEntry options)
  simp only [printData, one, user, group, groups, array, count, printed, Nat.one_ne_zero, Bool.false_eq_true, if_false,
    if_true, List.nil_append]
  rfl

end Printing

section Collecting

variable {system : System} {options : ProgramOptions} {gid : UInt32}

def Groups.Known (groups : Groups) (gid : UInt32) : Prop := groups.getgrgid gid ≠ none

def groupId (groups : Groups) (gid : UInt32) : NameId := ⟨gid, gid, (groups.getgrgid gid).map Group.grName⟩

def collected (system : System) : IdData where
  userData := ⟨system.credentials.ruid, system.credentials.euid,
    (system.users.getpwuid system.credentials.ruid).map Passwd.pwName⟩
  groupData := ⟨system.credentials.rgid, system.credentials.egid,
    (system.groups.getgrgid system.credentials.rgid).map Group.grName⟩
  groupsData := (groupsIds system.credentials).map (groupId system.groups) ++ [.zero]

theorem groupsIds_eq (credentials : Credentials) : groupsIds credentials =
    if credentials.egid ∈ credentials.groups then credentials.groups else credentials.groups ++ [credentials.egid] := by
  simp [groupsIds]

theorem groupsIds_ne_nil (credentials : Credentials) : groupsIds credentials ≠ [] := by
  rw [groupsIds_eq]
  split
  · next found => exact List.ne_nil_of_mem found
  · simp

theorem groupEntry_known (known : system.groups.Known gid) (i : Nat) :
    groupEntry .ample system.groups false gid i = .ok (groupId system.groups gid) := by
  obtain ⟨entry, found⟩ := Option.ne_none_iff_exists'.mp known
  simp [groupEntry, groupId, found, strdup, Memory.ample, system.groups.numbered gid entry found]

theorem groupEntry_error {i : Nat} {failure : Failure}
    (fails : groupEntry .ample system.groups false gid i = .error failure) : failure = .segfault := by
  by_cases known : system.groups.Known gid
  · rw [groupEntry_known known] at fails
    cases fails
  · simpa [groupEntry, not_not.mp known, eq_comm] using fails

theorem name_copied (ginfo : Option Group) :
    ginfo.bind (fun entry => strdup Memory.ample.groupName entry.grName) = ginfo.map Group.grName := by
  cases ginfo <;> rfl

theorem getProcessInfo_eq : getProcessInfo .ample system options =
    match (groupsIds system.credentials).zipIdx.mapM fun (gid, i) => groupEntry .ample system.groups false gid i with
    | .error failure => .error failure
    | .ok entries =>
        printData system.users { collected system with groupsData := entries ++ [.zero] }
          (groupsIds system.credentials).length options := by
  have kept : ((system.groups.getgrgid system.credentials.rgid).isSome &&
      ((system.groups.getgrgid system.credentials.rgid).map Group.grName).isNone) = false := by
    cases system.groups.getgrgid system.credentials.rgid <;> rfl
  unfold getProcessInfo
  simp only [name_copied, kept]
  rfl

theorem getProcessInfo_known (known : ∀ gid ∈ groupsIds system.credentials, system.groups.Known gid) :
    getProcessInfo .ample system options =
      printData system.users (collected system) (groupsIds system.credentials).length options := by
  have each : ∀ pair ∈ (groupsIds system.credentials).zipIdx,
      groupEntry .ample system.groups false pair.1 pair.2 = pure (groupId system.groups pair.1) :=
    fun pair member => groupEntry_known (known pair.1 (List.fst_mem_of_mem_zipIdx member)) pair.2
  have ids : (groupsIds system.credentials).zipIdx.map (fun pair => groupId system.groups pair.1) =
      (groupsIds system.credentials).map (groupId system.groups) := by
    conv_rhs => rw [← List.zipIdx_map_fst 0 (groupsIds system.credentials), List.map_map]
    rfl
  rw [getProcessInfo_eq, mapM_succeeds each, ids]
  rfl

/-- The entry of an unknown group is used all the same. -/
theorem getProcessInfo_missing (member : gid ∈ groupsIds system.credentials) (missing : ¬ system.groups.Known gid) :
    getProcessInfo .ample system options = .error .segfault := by
  obtain ⟨i, below, rfl⟩ := List.mem_iff_getElem.mp member
  have among : ((groupsIds system.credentials)[i], i) ∈ (groupsIds system.credentials).zipIdx := by
    simp [List.mem_zipIdx_iff_getElem?]
  have fails : groupEntry .ample system.groups false (groupsIds system.credentials)[i] i = .error .segfault := by
    simp [groupEntry, not_not.mp missing]
  have failed : (groupsIds system.credentials).zipIdx.mapM
      (fun pair => groupEntry .ample system.groups false pair.1 pair.2) = .error .segfault :=
    mapM_fails among fails fun _ _ _ error => groupEntry_error error
  rw [getProcessInfo_eq, failed]

end Collecting

section Numbers

variable {id : UInt32} {ids others : List UInt32}

theorem printId_injective : Function.Injective printId := by
  intro id other same
  have values := decimal_injective same
  have bound := id.toNat_lt
  have bound' := other.toNat_lt
  apply UInt32.toNat_inj.mp
  unfold toInt at values
  omega

theorem printId_eq_numeral : printId id = numeral 10 id.toNat ↔ id.toNat < 2 ^ 31 := by
  have bound := id.toNat_lt
  rw [← decimal_natural]
  constructor
  · intro same
    have values := decimal_injective same
    unfold toInt at values
    omega
  · intro below
    rw [printId, toInt_exact (by omega) (by unfold intMax; omega)]

theorem line_injective {items items' : List Bytes} (filled : items ≠ []) (filled' : items' ≠ [])
    (plain : ∀ item ∈ items, 32 ∉ item) (plain' : ∀ item ∈ items', 32 ∉ item) (same : line items = line items') :
    items = items' :=
  intercalate_injective filled filled' plain plain' (List.append_cancel_right same)

theorem plain_numbers {item : Bytes} (member : item ∈ ids.map printId) : 32 ∉ item := by
  obtain ⟨id, _, rfl⟩ := List.mem_map.mp member
  exact space_not_decimal _

theorem printed_ne_nil (filled : ids ≠ []) : line (ids.map printId) ≠ line [] := by
  intro same
  have empty : [32].intercalate (ids.map printId) = [] := by simpa using List.append_cancel_right same
  obtain ⟨first, rest, rfl⟩ := List.exists_cons_of_ne_nil filled
  cases rest with
  | nil =>
    rw [List.map_singleton, List.intercalate_singleton] at empty
    exact decimal_ne_nil empty
  | cons second rest =>
    rw [List.map_cons, List.map_cons, List.intercalate_cons_cons] at empty
    exact decimal_ne_nil (List.append_eq_nil_iff.mp (List.append_eq_nil_iff.mp empty).1).1

/-- The printed line says which IDs it shows. -/
theorem numbers_injective (filled : ids ≠ []) (same : line (ids.map printId) = line (others.map printId)) :
    ids = others := by
  by_cases none : others = []
  · subst none
    exact absurd same (printed_ne_nil filled)
  · exact printId_injective.list_map (line_injective (by simpa using filled) (by simpa using none)
      (fun _ => plain_numbers) (fun _ => plain_numbers) same)

end Numbers

section Identity

variable {system : System} {options : ProgramOptions}

structure System.Known (system : System) : Prop where
  ruid : system.users.getpwuid system.credentials.ruid ≠ none
  euid : system.users.getpwuid system.credentials.euid ≠ none
  rgid : system.groups.Known system.credentials.rgid
  egid : system.groups.Known system.credentials.egid
  groups : ∀ gid ∈ system.credentials.groups, system.groups.Known gid

def System.nameOf (system : System) (options : ProgramOptions) (id : UInt32) : Option Bytes :=
  if options.user then (system.users.getpwuid id).map Passwd.pwName else (system.groups.getgrgid id).map Group.grName

def realId (credentials : Credentials) (options : ProgramOptions) : UInt32 :=
  if options.user then credentials.ruid else credentials.rgid

def effectiveId (credentials : Credentials) (options : ProgramOptions) : UInt32 :=
  if options.user then credentials.euid else credentials.egid

/-- The names printed with `-n` are the names of the numbers printed without it. -/
def SameIdentity (system : System) (options : ProgramOptions) : Prop :=
  ∃ (ids : List UInt32) (names : List Bytes),
    getProcessInfo .ample system { options with name := false } = .ok (line (ids.map printId)) ∧
    getProcessInfo .ample system { options with name := true } = .ok (line names) ∧
    ids.map (system.nameOf options) = names.map some

theorem System.Known.all (known : system.Known) : ∀ gid ∈ groupsIds system.credentials, system.groups.Known gid := by
  intro gid member
  rw [groupsIds_eq] at member
  split at member
  · exact known.groups gid member
  · rcases List.mem_append.mp member with among | own
    · exact known.groups gid among
    · rw [List.mem_singleton.mp own]
      exact known.egid

theorem System.Known.real (known : system.Known) :
    ∃ name, system.nameOf options (realId system.credentials options) = some name := by
  apply Option.ne_none_iff_exists'.mp
  unfold System.nameOf realId
  split
  · simpa using known.ruid
  · simpa [Groups.Known] using known.rgid

theorem printed_groups (known : ∀ gid ∈ groupsIds system.credentials, system.groups.Known gid)
    (one : options.chosen = 1) (groups : options.groups = true) : getProcessInfo .ample system options =
      .ok (line ((groupsIds system.credentials).map fun gid => printEntry options (groupId system.groups gid))) := by
  rw [getProcessInfo_known known, printData_groups groups one (by simpa using groupsIds_ne_nil _) rfl (by simp),
    List.map_map]
  rfl

theorem printed_single (known : system.Known) (one : options.chosen = 1) (groups : options.groups = false) :
    getProcessInfo .ample system options = .ok (line [printEntry options ⟨realId system.credentials options,
      effectiveId system.credentials options, system.nameOf options (realId system.credentials options)⟩]) := by
  rw [getProcessInfo_known known.all]
  cases user : options.user with
  | true =>
    rw [printData_user user one]
    simp [collected, realId, effectiveId, System.nameOf, user]
  | false =>
    have group : options.group = true := by
      cases group : options.group with
      | true => rfl
      | false => simp [ProgramOptions.chosen, group, groups, user] at one
    rw [printData_group group one]
    simp [collected, realId, effectiveId, System.nameOf, user]

theorem sameIdentity_groups (known : system.Known) (one : options.chosen = 1) (groups : options.groups = true) :
    SameIdentity system options := by
  refine ⟨groupsIds system.credentials, (groupsIds system.credentials).map fun gid =>
    printName (groupId system.groups gid).name, ?_, ?_, ?_⟩
  · rw [@printed_groups system { options with name := false } known.all one groups]
    simp [printEntry, properPrint, groupId]
  · rw [@printed_groups system { options with name := true } known.all one groups]
    simp [printEntry, properPrint]
  · have user := (ProgramOptions.only_groups groups one).1
    rw [List.map_map]
    apply List.map_congr_left
    intro gid member
    obtain ⟨entry, found⟩ := Option.ne_none_iff_exists'.mp (known.all gid member)
    simp [System.nameOf, user, groupId, found, printName]

theorem sameIdentity_single (known : system.Known) (one : options.chosen = 1) (groups : options.groups = false) :
    SameIdentity system options ↔ options.real = true ∨
      system.nameOf options (realId system.credentials options) =
        system.nameOf options (effectiveId system.credentials options) := by
  obtain ⟨name, named⟩ := @System.Known.real system options known
  let shown := if options.real then realId system.credentials options else effectiveId system.credentials options
  have numbers : getProcessInfo .ample system { options with name := false } = .ok (line ([shown].map printId)) := by
    rw [@printed_single system { options with name := false } known one groups]
    simp only [printEntry, properPrint, Bool.false_eq_true, if_false, ← apply_ite printId]
    rfl
  have names : getProcessInfo .ample system { options with name := true } = .ok (line [name]) := by
    rw [@printed_single system { options with name := true } known one groups]
    simp only [printEntry, properPrint, if_true]
    exact congrArg (fun text => Except.ok (line [printName text])) named
  have same : SameIdentity system options ↔ system.nameOf options shown = some name := by
    constructor
    · rintro ⟨ids, texts, shownIds, shownNames, each⟩
      obtain rfl := numbers_injective (List.cons_ne_nil _ _) (Except.ok.inj (numbers.symm.trans shownIds))
      obtain ⟨text, rfl⟩ := List.length_eq_one_iff.mp (by simpa using (congrArg List.length each).symm)
      have line_eq := Except.ok.inj (names.symm.trans shownNames)
      simp only [line, List.intercalate_singleton, List.append_cancel_right_eq] at line_eq
      simpa [line_eq] using each
    · intro right
      exact ⟨[shown], [name], numbers, names, by simp [right]⟩
  rw [same, named]
  cases real : options.real with
  | true => simp [shown, real, named]
  | false => simp [shown, real, eq_comm]

/-- With -u or -g and without -r the effective ID is printed, and with -n the name of
the real one all the same. -/
theorem sameIdentity_iff (known : system.Known) (one : options.chosen = 1) : SameIdentity system options ↔
    options.groups = true ∨ options.real = true ∨
      system.nameOf options (realId system.credentials options) =
        system.nameOf options (effectiveId system.credentials options) := by
  cases groups : options.groups with
  | true => simpa using sameIdentity_groups known one groups
  | false => simpa using sameIdentity_single known one groups

def setuid : System where
  users := .ofEntries [⟨literal "root", 0⟩, ⟨literal "alice", 1000⟩]
  groups := .ofEntries [⟨literal "users", 100⟩]
  credentials := ⟨1000, 0, 100, 100, []⟩

theorem setuid_known : setuid.Known := by
  refine ⟨by decide, by decide, ?_, ?_, fun _ member => nomatch member⟩ <;> simp [Groups.Known, setuid, Groups.ofEntries]

example : getProcessInfo .ample setuid ⟨false, false, true, false, true⟩ = .ok (literal "alice\n") := by decide +kernel

/-- `id -u` prints 0 and `id -un` prints `alice`. -/
theorem setuid_differs : setuid.Known ∧ ¬ SameIdentity setuid ⟨false, false, false, false, true⟩ := by
  refine ⟨setuid_known, fun same => ?_⟩
  rcases (sameIdentity_single setuid_known rfl rfl).mp same with real | names
  · cases real
  · revert names
    decide +kernel

theorem setuid_real : SameIdentity setuid ⟨false, false, false, true, true⟩ :=
  (sameIdentity_iff setuid_known rfl).mpr (Or.inr (Or.inl rfl))

end Identity

section Listing

variable {system : System} {options : ProgramOptions}

def allGroups (credentials : Credentials) : List UInt32 :=
  if credentials.egid ∈ credentials.groups then credentials.groups else credentials.groups ++ [credentials.egid]

def Shows (groups : Groups) (options : ProgramOptions) (gid : UInt32) (item : Bytes) : Prop :=
  if options.name then ∃ entry, groups.getgrgid gid = some entry ∧ item = entry.grName
  else item = numeral 10 gid.toNat

/-- The program runs to its end and has printed all groups with a space between them. -/
def GroupsListed (system : System) (options : ProgramOptions) : Prop :=
  ∃ items, getProcessInfo .ample system options = .ok (line items) ∧
    List.Forall₂ (Shows system.groups options) (allGroups system.credentials) items

theorem shows_entry {gid : UInt32} (known : system.groups.Known gid)
    (fits : options.name = true ∨ gid.toNat < 2 ^ 31) :
    Shows system.groups options gid (printEntry options (groupId system.groups gid)) := by
  obtain ⟨entry, found⟩ := Option.ne_none_iff_exists'.mp known
  cases name : options.name with
  | true => simp [Shows, printEntry, properPrint, groupId, name, found, printName]
  | false =>
    have below := fits.resolve_left (by simp [name])
    simp [Shows, printEntry, properPrint, groupId, name, printId_eq_numeral.mpr below]

theorem numerals_of_shows {gids : List UInt32} {items : List Bytes} (name : options.name = false)
    (shows : List.Forall₂ (Shows system.groups options) gids items) : items = gids.map fun gid => numeral 10 gid.toNat := by
  induction shows with
  | nil => rfl
  | cons first rest ih =>
    simp only [Shows, name, Bool.false_eq_true, if_false] at first
    rw [first, ih, List.map_cons]

theorem known_of_listed (listed : GroupsListed system options) :
    ∀ gid ∈ groupsIds system.credentials, system.groups.Known gid := by
  intro gid member
  by_contra missing
  obtain ⟨items, printed, _⟩ := listed
  rw [getProcessInfo_missing member missing] at printed
  cases printed

theorem numbers_of_listed (groups : options.groups = true) (one : options.chosen = 1) (name : options.name = false)
    (listed : GroupsListed system options) :
    (groupsIds system.credentials).map printId = (groupsIds system.credentials).map fun gid => numeral 10 gid.toNat := by
  have known := known_of_listed listed
  obtain ⟨items, printed, shows⟩ := listed
  rw [allGroups, ← groupsIds_eq] at shows
  have numbers : (groupsIds system.credentials).map (fun gid => printEntry options (groupId system.groups gid)) =
      (groupsIds system.credentials).map printId := by
    simp [printEntry, properPrint, groupId, name]
  rw [printed_groups known one groups, numbers, numerals_of_shows name shows] at printed
  have filled := groupsIds_ne_nil system.credentials
  refine line_injective (by simpa using filled) (by simpa using filled) (fun _ => plain_numbers) ?_ (Except.ok.inj printed)
  intro item member
  obtain ⟨gid, _, rfl⟩ := List.mem_map.mp member
  rw [← decimal_natural]
  exact space_not_decimal _

/-- All groups are listed unless one of them has no entry, or is printed as a negative number. -/
theorem groupsListed_iff (groups : options.groups = true) (one : options.chosen = 1) : GroupsListed system options ↔
    ∀ gid ∈ allGroups system.credentials, system.groups.Known gid ∧ (options.name = true ∨ gid.toNat < 2 ^ 31) := by
  have complete : allGroups system.credentials = groupsIds system.credentials := (groupsIds_eq _).symm
  rw [complete]
  constructor
  · intro listed gid member
    refine ⟨known_of_listed listed gid member, ?_⟩
    cases name : options.name with
    | true => exact Or.inl rfl
    | false =>
      have same := List.map_inj_left.mp (numbers_of_listed groups one name listed) gid member
      exact Or.inr (printId_eq_numeral.mp same)
  · intro fits
    refine ⟨_, printed_groups (fun gid member => (fits gid member).1) one groups, ?_⟩
    rw [complete, List.forall₂_map_right_iff, List.forall₂_same]
    exact fun gid member => shows_entry (fits gid member).1 (fits gid member).2

def orphaned : System := { setuid with credentials := ⟨1000, 1000, 100, 100, [300]⟩ }

theorem orphaned_crashes : getProcessInfo .ample orphaned ⟨false, true, false, false, false⟩ = .error .segfault ∧
    ¬ GroupsListed orphaned ⟨false, true, false, false, false⟩ := by
  have crashes : getProcessInfo .ample orphaned ⟨false, true, false, false, false⟩ = .error .segfault := by
    decide +kernel
  refine ⟨crashes, ?_⟩
  rintro ⟨items, printed, _⟩
  rw [crashes] at printed
  cases printed

def member : System where
  users := .ofEntries [⟨literal "alice", 1000⟩]
  groups := .ofEntries [⟨literal "users", 100⟩, ⟨literal "audio", 63⟩, ⟨literal "wheel", 10⟩, ⟨literal "nobody", 65534⟩]
  credentials := ⟨1000, 1000, 100, 100, [63, 10, 65534]⟩

theorem member_listed : allGroups member.credentials = [63, 10, 65534, 100] ∧
    getProcessInfo .ample member ⟨false, true, false, false, false⟩ = .ok (literal "63 10 65534 100\n") ∧
    GroupsListed member ⟨false, true, false, false, false⟩ := by
  refine ⟨by decide, by decide +kernel, (groupsListed_iff rfl rfl).mpr ?_⟩
  have known : (allGroups member.credentials).all (fun gid =>
      (member.groups.getgrgid gid).isSome && decide (gid.toNat < 65536)) = true := by decide +kernel
  intro gid listed
  have found := List.all_eq_true.mp known gid listed
  simp only [Bool.and_eq_true, decide_eq_true_eq] at found
  exact ⟨Option.isSome_iff_ne_none.mp found.1, Or.inr (by omega)⟩

end Listing
end PosixC.Id
