import Mathlib.Data.List.Nodup
import Mathlib.Data.List.Pairwise
import TimingReport.Proofs.Json.Readings
import TimingReport.Proofs.Json.Skip

/-!
# What objects are read as

An object fills a record: every member that names a field puts its value there, and other
members do nothing. Since fields do not get in each other's way, the order of the members
does not matter.
-/

namespace TimingReport.Json

variable {σ α β : Type}

/-! ## Fields -/

/-- A field by the reader of its values and by where they are put. -/
structure Slot (σ : Type) where
  {Content : Type}
  name : String
  reader : Reader Content
  isLocal : Local reader
  set : σ → Content → σ

/-- The field of a slot. -/
def Slot.field (slot : Slot σ) : Field σ where
  name := slot.name
  read r s := (slot.reader s).map fun (a, rest) => (slot.set r a, rest)

/-- The slot of a field that may be absent. -/
def Slot.ofOptional (name : String) {reader : Reader α} (hlocal : Local reader)
    (set : σ → Option α → σ) : Slot σ where
  name := name
  reader := optional reader
  isLocal := local_optional hlocal
  set := set

/-- Two slots may be set in either order. -/
def Slot.Commutes (f g : Slot σ) : Prop :=
  ∀ r a b, g.set (f.set r a) b = f.set (g.set r b) a

instance : Std.Symm (Slot.Commutes : Slot σ → Slot σ → Prop) where
  symm _ _ hcommutes r a b := (hcommutes r b a).symm

/-- Slots with names of their own that may be set in any order. -/
structure Lawful (slots : List (Slot σ)) : Prop where
  distinct : (slots.map Slot.name).Nodup
  commutes : slots.Pairwise Slot.Commutes

variable {slots : List (Slot σ)}

/-- A name belongs to one slot only. -/
theorem Lawful.eq_of_name (hlawful : Lawful slots) {f g : Slot σ} (hf : f ∈ slots)
    (hg : g ∈ slots) (hname : f.name = g.name) : f = g :=
  List.inj_on_of_nodup_map hlawful.distinct hf hg hname

/-- Slots of different names may be set in either order. -/
theorem Lawful.set_comm (hlawful : Lawful slots) {f g : Slot σ} (hf : f ∈ slots)
    (hg : g ∈ slots) (hname : f.name ≠ g.name) : f.Commutes g := by
  have hne : f ≠ g := fun heq => hname (congrArg _ heq)
  exact hlawful.commutes.forall hf hg hne

/-- The field of a slot is found by its name. -/
theorem Lawful.find?_field (hlawful : Lawful slots) {slot : Slot σ} (hslot : slot ∈ slots) :
    (slots.map Slot.field).find? (·.name == slot.name) = some slot.field := by
  have hfind : slots.find? (·.name == slot.name) = some slot := by
    cases hfind : slots.find? (·.name == slot.name) with
    | none => simpa using List.find?_eq_none.mp hfind slot hslot
    | some found =>
        have hname : found.name = slot.name := by simpa using List.find?_some hfind
        rw [hlawful.eq_of_name (List.mem_of_find?_eq_some hfind) hslot hname]
  rw [List.find?_map]
  exact congrArg (Option.map Slot.field) hfind

/-! ## Filled records -/

/-- Members fill a record `r` up to `r'`. No two of them name the same slot. -/
inductive Fills (slots : List (Slot σ)) : List Member → σ → σ → Prop
  | nil {r : σ} : Fills slots [] r r
  | known {slot : Slot σ} {member : Member} {members : List Member} {r r' : σ}
      {a : slot.Content} (hslot : slot ∈ slots) (hkey : Spells member.key slot.name.toList)
      (hfresh : ∀ other ∈ members, ¬Spells other.key slot.name.toList)
      (hread : Reads slot.reader member.value a) (hrest : Fills slots members (slot.set r a) r') :
      Fills slots (member :: members) r r'
  | unknown {name : String} {member : Member} {members : List Member} {r r' : σ}
      (hkey : Spells member.key name.toList) (hname : ∀ slot ∈ slots, slot.name ≠ name)
      (hrest : Fills slots members r r') : Fills slots (member :: members) r r'

variable {member : Member} {members : List Member} {r r' : σ}

/-- The key of a member that is read spells a text. -/
theorem Fills.exists_name (hfills : Fills slots (member :: members) r r') :
    ∃ name : String, Spells member.key name.toList := by
  cases hfills with
  | known _ hkey _ _ _ => exact ⟨_, hkey⟩
  | unknown hkey _ _ => exact ⟨_, hkey⟩

/-- A member that names a slot fills it if no later one names it again. -/
theorem fills_known_iff (hlawful : Lawful slots) {slot : Slot σ} (hslot : slot ∈ slots)
    (hkey : Spells member.key slot.name.toList) :
    Fills slots (member :: members) r r' ↔
      (∀ other ∈ members, ¬Spells other.key slot.name.toList) ∧
        ∃ a, Reads slot.reader member.value a ∧ Fills slots members (slot.set r a) r' := by
  constructor
  · intro hfills
    cases hfills with
    | known hother hotherKey hfresh hread hrest =>
        obtain rfl := hlawful.eq_of_name hother hslot (hotherKey.unique hkey)
        exact ⟨hfresh, _, hread, hrest⟩
    | unknown hotherKey hname _ => exact absurd (hkey.unique hotherKey) (hname slot hslot)
  · rintro ⟨hfresh, a, hread, hrest⟩
    exact .known hslot hkey hfresh hread hrest

/-- A member that names no slot is passed over. -/
theorem fills_unknown_iff {name : String} (hkey : Spells member.key name.toList)
    (hname : ∀ slot ∈ slots, slot.name ≠ name) :
    Fills slots (member :: members) r r' ↔ Fills slots members r r' := by
  constructor
  · intro hfills
    cases hfills with
    | known hslot hotherKey _ _ _ => exact absurd (hotherKey.unique hkey) (hname _ hslot)
    | unknown _ _ hrest => exact hrest
  · exact fun hrest => .unknown hkey hname hrest

/-- Neighbouring members may change places. -/
theorem Fills.swap (hlawful : Lawful slots) {first second : Member}
    (hfills : Fills slots (first :: second :: members) r r') :
    Fills slots (second :: first :: members) r r' := by
  cases hfills with
  | unknown hkey hname hrest =>
    cases hrest with
    | unknown hkey' hname' hrest => exact .unknown hkey' hname' (.unknown hkey hname hrest)
    | known hslot' hkey' hfresh' hread' hrest =>
        refine .known hslot' hkey' (List.forall_mem_cons.mpr ⟨fun hsame => ?_, hfresh'⟩) hread'
          (.unknown hkey hname hrest)
        exact hname _ hslot' (hsame.unique hkey)
  | @known f _ _ _ _ a hslot hkey hfresh hread hrest =>
    obtain ⟨hother, hfresh⟩ := List.forall_mem_cons.mp hfresh
    cases hrest with
    | unknown hkey' hname' hrest =>
        exact .unknown hkey' hname' (.known hslot hkey hfresh hread hrest)
    | @known g _ _ _ _ b hslot' hkey' hfresh' hread' hrest =>
        have hne : f.name ≠ g.name := fun hsame => hother (hsame ▸ hkey')
        rw [hlawful.set_comm hslot hslot' hne] at hrest
        refine .known hslot' hkey' (List.forall_mem_cons.mpr ⟨fun hsame => ?_, hfresh'⟩) hread'
          (.known hslot hkey hfresh hread hrest)
        exact hne (hkey.unique hsame)

/-- The order of the members does not matter. -/
theorem Fills.perm (hlawful : Lawful slots) {others : List Member}
    (hperm : members.Perm others) (hfills : Fills slots members r r') :
    Fills slots others r r' := by
  induction hperm generalizing r with
  | nil => exact hfills
  | cons member hperm ih =>
      cases hfills with
      | unknown hkey hname hrest => exact .unknown hkey hname (ih hrest)
      | known hslot hkey hfresh hread hrest =>
          exact .known hslot hkey (fun other hother => hfresh other (hperm.mem_iff.mpr hother))
            hread (ih hrest)
  | swap second first members => exact hfills.swap hlawful
  | trans _ _ ih ih' => exact ih' (ih hfills)

/-! ## Objects -/

theorem nextMember_blank {gap : Symbols} (hgap : Blank gap) (first : Bool) (s : Symbols) :
    nextMember first (gap ++ s) = nextMember first s := by
  simp only [nextMember, skipBlank_append hgap]

theorem nextMember_close (first : Bool) (rest : Symbols) :
    nextMember first (some '\x7d' :: rest) = .ok (.closed rest) := rfl

/-- What stands behind the key of a member. -/
def Member.behindKey (member : Member) (tail : Symbols) : Symbols :=
  some '"' :: (member.gap ++ some ':' :: (member.before ++ (member.value ++
    (member.after ++ tail))))

/-- A member of an object is found behind the comma and the white space in front of it. -/
theorem nextMember_member (member : Member) (first : Bool) (texts : List Symbols)
    (tail : Symbols) :
    nextMember first (divided first (member.text :: texts) ++ tail) =
      .ok (.starts (member.key ++ member.behindKey (divided false texts ++ tail))) := by
  have hquote : ¬isBlank (some '"') := by decide
  have hcomma : ¬isBlank (some ',') := by decide
  cases first <;>
    simp [divided, Member.text, Item.text, Member.behindKey, nextMember,
      skipBlank_append member.blank_lead, skipBlank_cons hquote, skipBlank_cons hcomma]

theorem readColon_gap {gap : Symbols} (hgap : Blank gap) (rest : Symbols) :
    readColon (gap ++ some ':' :: rest) = .ok rest := by
  have hcolon : ¬isBlank (some ':') := by decide
  simp [readColon, skipBlank_append hgap, skipBlank_cons hcolon]

theorem readMembers_blank {gap : Symbols} (hgap : Blank gap) (fields : List (Field σ))
    (fuel : Nat) (first : Bool) (seen : List String) (r : σ) (s : Symbols) :
    readMembers fields fuel first seen r (gap ++ s) = readMembers fields fuel first seen r s := by
  cases fuel with
  | zero => rfl
  | succ fuel => rw [readMembers, readMembers, nextMember_blank hgap]

variable {fuel : Nat} {first : Bool} {seen : List String} {texts : List Symbols} {tail : Symbols}

/-- A member whose key spells no text ends the reading. -/
theorem readMembers_unspelled {fields : List (Field σ)}
    (hkey : ∀ name : String, ¬Spells member.key name.toList) :
    ∃ fault, readMembers fields (fuel + 1) first seen r
      (divided first (member.text :: texts) ++ tail) = .error fault := by
  rw [readMembers, nextMember_member]
  cases hread : readString (member.key ++ member.behindKey (divided false texts ++ tail)) with
  | error fault => exact ⟨fault, by simp only [hread]⟩
  | ok found => exact absurd ((readString_eq_ok_iff member.body_key).mp hread).2 (hkey _)

/-- A member is read by the field that its key spells, or it is passed over. -/
theorem readMembers_spelled {fields : List (Field σ)} {name : String}
    (hkey : Spells member.key name.toList) :
    readMembers fields (fuel + 1) first seen r (divided first (member.text :: texts) ++ tail) =
      let s := member.before ++ (member.value ++ (member.after ++ (divided false texts ++ tail)))
      match fields.find? (·.name == name) with
      | some field =>
          if seen.contains name then .error (.duplicateField name)
          else
            match field.read r s with
            | .error fault => .error fault
            | .ok (r, s) => readMembers fields fuel false (name :: seen) r s
      | none =>
          match Skip.value s with
          | .error fault => .error fault
          | .ok s => readMembers fields fuel false seen r s := by
  have hread : ∀ rest, readString (member.key ++ some '"' :: rest) = .ok (name, rest) :=
    fun rest => (readString_eq_ok_iff member.body_key).mpr ⟨rfl, hkey⟩
  simp only [readMembers, nextMember_member, Member.behindKey, hread,
    readColon_gap member.blank_gap]
  rfl

/-- A member that names a slot is read into it, and the others after it. -/
theorem readMembers_known_eq_ok_iff (hlawful : Lawful slots) {slot : Slot σ}
    (hslot : slot ∈ slots) (hkey : Spells member.key slot.name.toList)
    (hseen : slot.name ∉ seen) (hvalue : Value member.value)
    (hends : Ends (member.after ++ (divided false texts ++ tail))) {left : Symbols} :
    readMembers (slots.map Slot.field) (fuel + 1) first seen r
        (divided first (member.text :: texts) ++ tail) = .ok (r', left) ↔
      ∃ a, Reads slot.reader member.value a ∧
        readMembers (slots.map Slot.field) fuel false (slot.name :: seen) (slot.set r a)
          (divided false texts ++ tail) = .ok (r', left) := by
  rw [readMembers_spelled hkey, hlawful.find?_field hslot]
  simp only [List.contains_iff_mem, hseen, if_false, Slot.field,
    slot.isLocal.append_blank member.blank_before]
  cases hread : slot.reader (member.value ++ (member.after ++ (divided false texts ++ tail))) with
  | error fault =>
      refine iff_of_false nofun ?_
      rintro ⟨a, hreads, _⟩
      rw [hreads _ hends] at hread
      contradiction
  | ok found =>
      obtain ⟨a, s⟩ := found
      obtain ⟨rfl, hreads⟩ := (slot.isLocal.eq_ok_iff hvalue hends).mp hread
      simp only [Except.map, readMembers_blank member.blank_after]
      refine ⟨fun hrest => ⟨a, hreads, hrest⟩, ?_⟩
      rintro ⟨b, hreads', hrest⟩
      rwa [hreads.unique hreads']

/-- A second member for a slot is refused. -/
theorem readMembers_seen (hlawful : Lawful slots) {slot : Slot σ} (hslot : slot ∈ slots)
    (hkey : Spells member.key slot.name.toList) (hseen : slot.name ∈ seen) :
    readMembers (slots.map Slot.field) (fuel + 1) first seen r
        (divided first (member.text :: texts) ++ tail) = .error (.duplicateField slot.name) := by
  rw [readMembers_spelled hkey, hlawful.find?_field hslot]
  simp [hseen]

/-- A member that names no slot leaves the record as it is. -/
theorem readMembers_unknown {name : String} (hkey : Spells member.key name.toList)
    (hname : ∀ slot ∈ slots, slot.name ≠ name) (hvalue : Value member.value)
    (hends : Ends (member.after ++ (divided false texts ++ tail))) :
    readMembers (slots.map Slot.field) (fuel + 1) first seen r
        (divided first (member.text :: texts) ++ tail) =
      readMembers (slots.map Slot.field) fuel false seen r (divided false texts ++ tail) := by
  have hfind : (slots.map Slot.field).find? (·.name == name) = none := by
    simpa [Slot.field] using hname
  rw [readMembers_spelled hkey, hfind]
  simp only [Skip.value_append hvalue member.blank_before hends]
  exact readMembers_blank member.blank_after ..

/-- No member names a slot that was seen before. -/
def Unseen (seen : List String) (members : List Member) : Prop :=
  ∀ name ∈ seen, ∀ member ∈ members, ¬Spells member.key name.toList

theorem unseen_nil_left (members : List Member) : Unseen [] members :=
  fun _ hname => absurd hname List.not_mem_nil

theorem unseen_nil_right (seen : List String) : Unseen seen [] :=
  fun _ _ _ hmember => absurd hmember List.not_mem_nil

theorem unseen_cons_left {name : String} : Unseen (name :: seen) members ↔
    (∀ other ∈ members, ¬Spells other.key name.toList) ∧ Unseen seen members :=
  List.forall_mem_cons

/-- A member is new exactly if its name was not seen and the others are new. -/
theorem unseen_cons_right {name : String} (hkey : Spells member.key name.toList) :
    Unseen seen (member :: members) ↔ name ∉ seen ∧ Unseen seen members := by
  constructor
  · intro hunseen
    refine ⟨fun hname => hunseen name hname member List.mem_cons_self hkey, ?_⟩
    exact fun name hname => (List.forall_mem_cons.mp (hunseen name hname)).2
  · rintro ⟨hname, hunseen⟩ other hother
    refine List.forall_mem_cons.mpr ⟨fun hsame => ?_, hunseen other hother⟩
    exact hname (hsame.unique hkey ▸ hother)

/-- An object is read if its members fill the record. The induction carries the names of
the slots that were set before, which no further member may have. -/
theorem readMembers_eq_ok_iff (hlawful : Lawful slots)
    (hmembers : ∀ member ∈ members, Value member.value) {gap : Symbols} (hgap : Blank gap)
    (hfuel : members.length < fuel) (hseen : ∀ name ∈ seen, ∃ slot ∈ slots, slot.name = name)
    {rest left : Symbols} :
    readMembers (slots.map Slot.field) fuel first seen r
        (divided first (members.map Member.text) ++ (gap ++ some '\x7d' :: rest)) =
      .ok (r', left) ↔ left = rest ∧ Unseen seen members ∧ Fills slots members r r' := by
  have hclose : isEnd (some '\x7d') := by decide
  induction members generalizing fuel first seen r with
  | nil =>
      cases fuel with
      | zero => contradiction
      | succ fuel =>
        rw [List.map_nil, divided, List.nil_append, readMembers_blank hgap, readMembers,
          nextMember_close]
        constructor
        · intro hread
          obtain ⟨rfl, rfl⟩ := Prod.mk.inj (Except.ok.inj hread)
          exact ⟨rfl, unseen_nil_right seen, .nil⟩
        · rintro ⟨rfl, _, ⟨⟩⟩
          rfl
  | cons member members ih =>
      cases fuel with
      | zero => contradiction
      | succ fuel =>
        obtain ⟨hvalue, hmembers⟩ := List.forall_mem_cons.mp hmembers
        have hfuel : members.length < fuel := Nat.lt_of_succ_lt_succ hfuel
        have hends := member.ends_after hgap hclose (members.map Member.text) rest
        rw [List.map_cons]
        by_cases hkey : ∃ name : String, Spells member.key name.toList
        case neg =>
          -- keys are read as text before a field is looked for
          obtain ⟨fault, hread⟩ := readMembers_unspelled (not_exists.mp hkey)
          rw [hread]
          refine iff_of_false (by simp) ?_
          rintro ⟨_, _, hfills⟩
          exact hkey hfills.exists_name
        obtain ⟨name, hkey⟩ := hkey
        rw [unseen_cons_right hkey]
        by_cases hslot : ∃ slot ∈ slots, slot.name = name
        case neg =>
          have hname : ∀ slot ∈ slots, slot.name ≠ name := by simpa using hslot
          have hunseen : name ∉ seen := fun hmem => hslot (hseen name hmem)
          rw [readMembers_unknown hkey hname hvalue hends, fills_unknown_iff hkey hname]
          simpa [hunseen] using ih hmembers hfuel hseen
        obtain ⟨slot, hslot, rfl⟩ := hslot
        by_cases hunseen : slot.name ∈ seen
        case pos =>
          rw [readMembers_seen hlawful hslot hkey hunseen]
          simp [hunseen]
        -- what is freshly seen is what `Fills` wants no later member to name
        have hseen' : ∀ name ∈ slot.name :: seen, ∃ slot ∈ slots, slot.name = name :=
          List.forall_mem_cons.mpr ⟨⟨slot, hslot, rfl⟩, hseen⟩
        rw [readMembers_known_eq_ok_iff hlawful hslot hkey hunseen hvalue hends,
          fills_known_iff hlawful hslot hkey]
        simp only [ih hmembers hfuel hseen', unseen_cons_left]
        constructor
        · rintro ⟨a, hreads, hleft, ⟨hfresh, hothers⟩, hfills⟩
          exact ⟨hleft, ⟨hunseen, hothers⟩, hfresh, a, hreads, hfills⟩
        · rintro ⟨hleft, ⟨_, hothers⟩, hfresh, a, hreads, hfills⟩
          exact ⟨a, hreads, hleft, ⟨hfresh, hothers⟩, hfills⟩

theorem Member.text_ne_nil (member : Member) : member.text ≠ [] := by
  simp [Member.text]

variable {wanted : String} {empty : σ} {form : Form}

/-- An object is read exactly if its members fill the record. -/
theorem record_eq_ok_iff (hlawful : Lawful slots)
    (hmembers : ∀ member ∈ members, Value member.value) {gap : Symbols} (hgap : Blank gap)
    {rest left : Symbols} :
    record wanted (slots.map Slot.field) empty (objectText members gap ++ rest) =
        .ok ((r, form), left) ↔
      left = rest ∧ form = .named ∧ Fills slots members empty r := by
  have hopen : ¬isBlank (some '\x7b') := by decide
  have htexts : ∀ text ∈ members.map Member.text, text ≠ [] := by
    simpa using fun member _ => Member.text_ne_nil member
  have hfuel := length_lt_fuel htexts (gap ++ some '\x7d' :: rest)
  rw [List.length_map] at hfuel
  have hrecord : record wanted (slots.map Slot.field) empty (objectText members gap ++ rest) =
      (readMembers (slots.map Slot.field)
        (Medium.width (divided true (members.map Member.text) ++ (gap ++ some '\x7d' :: rest)) + 1)
        true [] empty (divided true (members.map Member.text) ++ (gap ++ some '\x7d' :: rest))).map
        fun read => ((read.1, .named), read.2) := by
    simp [objectText, record, skipBlank_cons hopen]
  have hseen : ∀ name ∈ ([] : List String), ∃ slot ∈ slots, slot.name = name :=
    fun _ hname => absurd hname List.not_mem_nil
  rw [hrecord, Outcome.map_eq_ok_iff]
  constructor
  · rintro ⟨⟨r', s⟩, hread, hr⟩
    obtain ⟨rfl, _, hfills⟩ := (readMembers_eq_ok_iff hlawful hmembers hgap hfuel hseen).mp hread
    obtain ⟨hpair, hleft⟩ := Prod.mk.inj hr
    obtain ⟨rfl, rfl⟩ := Prod.mk.inj hpair
    exact ⟨hleft.symm, rfl, hfills⟩
  · rintro ⟨rfl, rfl, hfills⟩
    exact ⟨(r, left), (readMembers_eq_ok_iff hlawful hmembers hgap hfuel hseen).mpr
      ⟨rfl, unseen_nil_left members, hfills⟩, rfl⟩

end TimingReport.Json
