import LineShell.NameMap
import Mathlib.Data.List.Sort
import Mathlib.Data.String.Basic

/-!
Maps from names as ordered rows of entries. Binding a name keeps the row strictly increasing, and
an increasing row is determined by what its names are bound to; so bindings of different names
commute. Main statements: the names of an increasing row are the ones that are bound, the entry whose
place a name takes is the one it was bound to, and the order of names is that of their bytes.
-/

namespace LineShell

namespace Text

/-- The bytes of a text, as UTF-8 has them. -/
def bytes (s : String) : List UInt8 := s.toUTF8.data.toList

theorem bytes_flat (s : String) : bytes s = s.toList.flatMap String.utf8EncodeChar := by
  have encoded : s.toByteArray = s.toList.utf8Encode := by
    rw [← String.toByteArray_ofList, String.ofList_toList]
  rw [bytes, String.toUTF8_eq_toByteArray, encoded]
  simp [List.utf8Encode]

theorem char_bound (c : Char) : c.val.toNat < 0x110000 := by
  rcases c.valid with low | ⟨_, high⟩
  · have bounded : c.val.toNat < 0xd800 := low
    omega
  · exact high

/-- The bytes of a smaller character are smaller at the first place where they differ. -/
theorem encode_char_lt {c d : Char} (smaller : c < d) (xs ys : List UInt8) :
    String.utf8EncodeChar c ++ xs < String.utf8EncodeChar d ++ ys := by
  have values : c.val.toNat < d.val.toNat := smaller
  have bound := char_bound d
  unfold String.utf8EncodeChar
  generalize c.val.toNat = v, d.val.toNat = w at *
  -- Every byte after the first holds six binary digits, so numbers compare like their bytes.
  have last : v / 64 < w / 64 ∨ v / 64 = w / 64 ∧ v % 64 < w % 64 := by omega
  have third : v / 64 < w / 64 →
      v / 4096 < w / 4096 ∨ v / 4096 = w / 4096 ∧ v / 64 % 64 < w / 64 % 64 := by omega
  have second : v / 4096 < w / 4096 →
      v / 262144 < w / 262144 ∨ v / 262144 = w / 262144 ∧ v / 4096 % 64 < w / 4096 % 64 := by
    omega
  dsimp only
  split_ifs <;>
    simp (disch := omega) only [List.cons_append, List.nil_append, List.cons_lt_cons_iff,
      UInt8.lt_iff_toNat_lt, ← UInt8.toNat_inj, UInt8.toNat_ofNat', Nat.mod_eq_of_lt] <;> omega

theorem encode_lt {cs ds : List Char} (smaller : cs < ds) :
    cs.flatMap String.utf8EncodeChar < ds.flatMap String.utf8EncodeChar := by
  induction smaller with
  | @nil d ds =>
      rw [List.flatMap_nil, List.flatMap_cons]
      obtain ⟨first, rest, encoded⟩ := List.exists_cons_of_ne_nil (@String.utf8EncodeChar_ne_nil d)
      rw [encoded]
      exact List.nil_lt_cons first _
  | cons later induction =>
      rw [List.flatMap_cons, List.flatMap_cons]
      exact List.append_left_lt induction
  | rel first =>
      rw [List.flatMap_cons, List.flatMap_cons]
      exact encode_char_lt first _ _

theorem bytes_lt {a b : String} (smaller : a < b) : bytes a < bytes b := by
  rw [bytes_flat, bytes_flat]
  exact encode_lt (String.lt_iff_toList_lt.mp smaller)

end Text

namespace NameMap

variable {α : Type}

def Increasing (map : NameMap α) : Prop := map.names.Pairwise (· < ·)

theorem mem_names_iff (map : NameMap α) (name : String) :
    name ∈ map.names ↔ (map.get? name).isSome = true := by
  rw [names, get?]
  generalize map.entries = entries
  induction entries with
  | nil => simp
  | cons entry rest induction =>
      obtain ⟨other, item⟩ := entry
      rw [List.map_cons, List.mem_cons, List.lookup_cons, induction]
      by_cases same : name = other
      · simp [same]
      · simp [same, beq_eq_false_iff_ne.mpr same]

section Rows

variable {name : String} {item : α} {entries : List (String × α)}

theorem mem_insert_into {other : String}
    (member : other ∈ (insertInto name item entries).map Prod.fst) :
    other = name ∨ other ∈ entries.map Prod.fst := by
  induction entries with
  | nil => simpa [insertInto] using member
  | cons entry rest induction =>
      obtain ⟨first, old⟩ := entry
      rw [insertInto] at member
      split_ifs at member <;> grind

theorem insert_into_increasing (increasing : (entries.map Prod.fst).Pairwise (· < ·)) :
    ((insertInto name item entries).map Prod.fst).Pairwise (· < ·) := by
  induction entries with
  | nil => simp [insertInto]
  | cons entry rest induction =>
      obtain ⟨first, old⟩ := entry
      obtain ⟨least, later⟩ := List.pairwise_cons.mp increasing
      rw [insertInto]
      split_ifs with before same
      · refine List.pairwise_cons.mpr ⟨?_, increasing⟩
        intro other member
        rcases List.mem_cons.mp member with rfl | member
        · exact before
        · exact before.trans (least other member)
      · subst same
        exact increasing
      · refine List.pairwise_cons.mpr ⟨?_, induction later⟩
        intro other member
        rcases mem_insert_into member with rfl | member
        · exact lt_of_le_of_ne (not_lt.mp before) (Ne.symm same)
        · exact least other member

theorem lookup_before (least : ∀ other ∈ entries.map Prod.fst, name < other) :
    entries.lookup name = none := by
  induction entries with
  | nil => rfl
  | cons entry rest induction =>
      obtain ⟨first, old⟩ := entry
      obtain ⟨before, later⟩ := List.forall_mem_cons.mp least
      rw [List.lookup_cons, beq_eq_false_iff_ne.mpr (ne_of_lt before)]
      exact induction later

theorem displaced_lookup (increasing : (entries.map Prod.fst).Pairwise (· < ·)) :
    displaced name entries = entries.lookup name := by
  induction entries with
  | nil => rfl
  | cons entry rest induction =>
      obtain ⟨first, old⟩ := entry
      obtain ⟨least, later⟩ := List.pairwise_cons.mp increasing
      rw [displaced]
      split_ifs with before same
      · symm
        apply lookup_before
        intro other member
        rcases List.mem_cons.mp member with rfl | member
        · exact before
        · exact before.trans (least other member)
      · rw [same, List.lookup_cons_self]
      · rw [List.lookup_cons, beq_eq_false_iff_ne.mpr same]
        exact induction later

theorem mem_iff_lookup (increasing : (entries.map Prod.fst).Pairwise (· < ·)) :
    (name, item) ∈ entries ↔ entries.lookup name = some item := by
  induction entries with
  | nil => simp
  | cons entry rest induction =>
      obtain ⟨first, old⟩ := entry
      obtain ⟨least, later⟩ := List.pairwise_cons.mp increasing
      rw [List.mem_cons, induction later, List.lookup_cons]
      by_cases same : name = first
      · subst same
        simp [lookup_before least, eq_comm]
      · simp [same, beq_eq_false_iff_ne.mpr same]

theorem lookup_ext {others : List (String × α)}
    (increasing : (entries.map Prod.fst).Pairwise (· < ·))
    (otherIncreasing : (others.map Prod.fst).Pairwise (· < ·))
    (same : ∀ name, entries.lookup name = others.lookup name) : entries = others := by
  have irreflexive : Std.Irrefl fun a b : String × α => a.1 < b.1 := ⟨fun a => lt_irrefl a.1⟩
  have antisymmetric : Std.Antisymm fun a b : String × α => a.1 < b.1 :=
    ⟨fun a b before after => absurd after (lt_asymm before)⟩
  apply List.Pairwise.eq_of_mem_iff (List.pairwise_map.mp increasing)
    (List.pairwise_map.mp otherIncreasing)
  rintro ⟨name, item⟩
  rw [mem_iff_lookup increasing, mem_iff_lookup otherIncreasing, same]

end Rows

theorem insert_increasing {map : NameMap α} (increasing : map.Increasing) (name : String)
    (item : α) : (map.insert name item).Increasing := insert_into_increasing increasing

theorem exchange_replaced {map : NameMap α} (increasing : map.Increasing) (name : String)
    (item : α) : (map.exchange name item).1 = map.get? name := displaced_lookup increasing

theorem increasing_ext {map other : NameMap α} (increasing : map.Increasing)
    (otherIncreasing : other.Increasing) (same : ∀ name, map.get? name = other.get? name) :
    map = other := by
  obtain ⟨entries⟩ := map
  obtain ⟨others⟩ := other
  exact congrArg mk (lookup_ext increasing otherIncreasing same)

theorem insert_commutes {map : NameMap α} (increasing : map.Increasing) {a b : String}
    (different : a ≠ b) (x y : α) : (map.insert a x).insert b y = (map.insert b y).insert a x := by
  apply increasing_ext
  · exact insert_increasing (insert_increasing increasing a x) b y
  · exact insert_increasing (insert_increasing increasing b y) a x
  · intro name
    simp only [get?_insert]
    by_cases first : name = a
    · rw [if_pos first, if_pos first, if_neg (first ▸ different)]
    · rw [if_neg first, if_neg first]

end NameMap

end LineShell
