import Mathlib.Tactic.Common
import TwoPhaseCommit.Record.Payload

/-!
# Reading what was written

Each reader takes from the front of its input exactly what the matching writer lays down, for the
values that the writer can lay down at all: a length or a count must fit its eight bytes. So a
record is read from a byte string exactly if its payload stands at the front, whatever comes after
it.
-/

namespace TwoPhaseCommit

/-! ### Text -/

namespace Utf8

lemma decode?_encode (s : String) : decode? (encode s) = some s := by
  simp only [decode?, encode, Array.toArray_toList, String.fromUTF8?, String.toUTF8_eq_toByteArray]
  exact dif_pos s.isValidUTF8

/-- A byte string spells at most one text, and no other spells the same. -/
lemma decode?_eq_some_iff {bs : Bytes} {s : String} : decode? bs = some s ↔ bs = encode s := by
  constructor
  · intro h
    unfold decode? String.fromUTF8? at h
    split at h
    next hv =>
      cases h
      simp [encode, String.fromUTF8]
    next => cases h
  · rintro rfl
    exact decode?_encode s

end Utf8

namespace Payload

variable {α β : Type} {a : α} {b : β} {p : Reader α} {f : α → Reader β} {bs rest : Bytes}

/-! ### Readers -/

lemma bind_eq_ok_iff :
    (p >>= f) bs = .ok (b, rest) ↔ ∃ a mid, p bs = .ok (a, mid) ∧ f a mid = .ok (b, rest) := by
  have hbind : (p >>= f) bs = (p bs).bind fun x => f x.1 x.2 := rfl
  rw [hbind]
  cases p bs with
  | error e => simp [Except.bind]
  | ok x => simp [Except.bind, Prod.ext_iff, and_assoc]

lemma pure_eq_ok_iff {a' : α} :
    (pure a : Reader α) bs = .ok (a', rest) ↔ a' = a ∧ bs = rest := by
  have hpure : (pure a : Reader α) bs = .ok (a, bs) := rfl
  rw [hpure, Except.ok.injEq, Prod.mk.injEq, eq_comm (a := a)]

lemma throw_ne_ok {e : PayloadFault} : (throw e : Reader α) bs ≠ .ok (a, rest) := nofun

lemma readNat_iff {w n : Nat} :
    readNat w bs = .ok (n, rest) ↔ n < Bytes.capacity w ∧ bs = Bytes.ofNat w n ++ rest := by
  unfold readNat
  constructor
  · intro h
    split at h
    next => cases h
    next hw =>
      cases h
      -- enough bytes are left, so that what is taken has the full width
      have hlength : (bs.take w).length = w := by
        rw [List.length_take]
        omega
      refine ⟨Bytes.toNat_lt_of_length hlength, ?_⟩
      rw [Bytes.ofNat_toNat_of_length hlength, List.take_append_drop]
  · rintro ⟨hn, rfl⟩
    have hlong : ¬(Bytes.ofNat w n ++ rest).length < w := by
      rw [List.length_append, Bytes.length_ofNat]
      omega
    rw [if_neg hlong, List.take_left' (Bytes.length_ofNat w n),
      List.drop_left' (Bytes.length_ofNat w n), Bytes.toNat_ofNat hn]

lemma readBytes_iff {k : Nat} {raw : Bytes} :
    readBytes k bs = .ok (raw, rest) ↔ raw.length = k ∧ bs = raw ++ rest := by
  unfold readBytes
  constructor
  · intro h
    split at h
    next => cases h
    next hk =>
      cases h
      refine ⟨?_, (List.take_append_drop k bs).symm⟩
      rw [List.length_take]
      omega
  · rintro ⟨hraw, rfl⟩
    have hlong : ¬(raw ++ rest).length < k := by
      rw [List.length_append]
      omega
    rw [if_neg hlong, List.take_left' hraw, List.drop_left' hraw]

lemma readBlob_iff {raw : Bytes} :
    readBlob bs = .ok (raw, rest) ↔ raw.length < Bytes.capacity 8 ∧ bs = blob raw ++ rest := by
  rw [readBlob, bind_eq_ok_iff, blob, List.append_assoc]
  constructor
  · rintro ⟨n, mid, hn, hraw⟩
    obtain ⟨hfit, rfl⟩ := readNat_iff.mp hn
    obtain ⟨rfl, rfl⟩ := readBytes_iff.mp hraw
    exact ⟨hfit, rfl⟩
  · rintro ⟨hfit, rfl⟩
    exact ⟨raw.length, raw ++ rest, readNat_iff.mpr ⟨hfit, rfl⟩, readBytes_iff.mpr ⟨rfl, rfl⟩⟩

lemma readTxId_iff {id : TxId} : readTxId bs = .ok (id, rest) ↔ bs = blob id.bytes ++ rest := by
  rw [readTxId, bind_eq_ok_iff]
  constructor
  · rintro ⟨raw, mid, hraw, h⟩
    obtain ⟨-, rfl⟩ := readBlob_iff.mp hraw
    cases hid : TxId.ofBytes? raw with
    | none =>
      rw [hid] at h
      exact absurd h throw_ne_ok
    | some id' =>
      rw [hid] at h
      obtain ⟨rfl, rfl⟩ := pure_eq_ok_iff.mp h
      rw [TxId.bytes_of_ofBytes? hid]
  · rintro rfl
    have hfit : id.bytes.length < Bytes.capacity 8 := by
      rw [id.length_eq]
      decide
    refine ⟨id.bytes, rest, readBlob_iff.mpr ⟨hfit, rfl⟩, ?_⟩
    rw [TxId.ofBytes?_bytes]
    exact pure_eq_ok_iff.mpr ⟨rfl, rfl⟩

lemma readDecision_iff {d : Decision} :
    readDecision bs = .ok (d, rest) ↔ bs = Bytes.ofNat 4 d.code ++ rest := by
  rw [readDecision, bind_eq_ok_iff]
  constructor
  · rintro ⟨n, mid, hn, h⟩
    obtain ⟨-, rfl⟩ := readNat_iff.mp hn
    match n with
    | 0 =>
      obtain ⟨rfl, rfl⟩ := pure_eq_ok_iff.mp h
      rfl
    | 1 =>
      obtain ⟨rfl, rfl⟩ := pure_eq_ok_iff.mp h
      rfl
    | n + 2 => exact absurd h throw_ne_ok
  · rintro rfl
    refine ⟨d.code, rest, readNat_iff.mpr ⟨?_, rfl⟩, ?_⟩
    · cases d <;> decide
    · cases d <;> exact pure_eq_ok_iff.mpr ⟨rfl, rfl⟩

/-- The length of a name can be stated. -/
def NameFits (r : ResourceId) : Prop := (Utf8.encode r.name).length < Bytes.capacity 8

lemma readText_iff {s : String} :
    readText bs = .ok (s, rest) ↔ NameFits ⟨s⟩ ∧ bs = name ⟨s⟩ ++ rest := by
  rw [readText, bind_eq_ok_iff]
  constructor
  · rintro ⟨raw, mid, hraw, h⟩
    obtain ⟨hfit, rfl⟩ := readBlob_iff.mp hraw
    cases hs : Utf8.decode? raw with
    | none =>
      rw [hs] at h
      exact absurd h throw_ne_ok
    | some s' =>
      rw [hs] at h
      obtain ⟨rfl, rfl⟩ := pure_eq_ok_iff.mp h
      rw [Utf8.decode?_eq_some_iff] at hs
      subst hs
      exact ⟨hfit, rfl⟩
  · rintro ⟨hfit, rfl⟩
    refine ⟨Utf8.encode s, rest, readBlob_iff.mpr ⟨hfit, rfl⟩, ?_⟩
    rw [Utf8.decode?_encode]
    exact pure_eq_ok_iff.mpr ⟨rfl, rfl⟩

lemma readNames_iff {n : Nat} {ids : List ResourceId} :
    readNames n bs = .ok (ids, rest) ↔
      ids.length = n ∧ (∀ id ∈ ids, NameFits id) ∧ bs = ids.flatMap name ++ rest := by
  induction n generalizing bs ids rest with
  | zero =>
    rw [readNames, pure_eq_ok_iff, List.length_eq_zero_iff]
    constructor
    · rintro ⟨rfl, rfl⟩
      exact ⟨rfl, by simp, rfl⟩
    · rintro ⟨rfl, -, rfl⟩
      exact ⟨rfl, rfl⟩
  | succ n ih =>
    rw [readNames, bind_eq_ok_iff]
    constructor
    · rintro ⟨s, mid, hs, h⟩
      obtain ⟨hfit, rfl⟩ := readText_iff.mp hs
      obtain ⟨ids', mid', hids, hlast⟩ := bind_eq_ok_iff.mp h
      obtain ⟨hlength, hall, rfl⟩ := ih.mp hids
      obtain ⟨rfl, rfl⟩ := pure_eq_ok_iff.mp hlast
      refine ⟨by rw [List.length_cons, hlength], List.forall_mem_cons.mpr ⟨hfit, hall⟩, ?_⟩
      rw [List.flatMap_cons, List.append_assoc]
    · rintro ⟨hlength, hall, rfl⟩
      obtain ⟨id, ids', rfl⟩ := List.exists_cons_of_length_eq_add_one hlength
      obtain ⟨hid, hids⟩ := List.forall_mem_cons.mp hall
      rw [List.flatMap_cons, List.append_assoc]
      refine ⟨id.name, _, readText_iff.mpr ⟨hid, rfl⟩, bind_eq_ok_iff.mpr ⟨ids', rest, ?_, ?_⟩⟩
      · exact ih.mpr ⟨Nat.succ.inj hlength, hids, rfl⟩
      · exact pure_eq_ok_iff.mpr ⟨rfl, rfl⟩

/-! ### Records -/

/-- Every length and count of a record can be stated. -/
def Writable (r : LogRecord) : Prop :=
  r.pending.length < Bytes.capacity 8 ∧ ∀ id ∈ r.pending, NameFits id

/-- A record is read exactly where its payload stands. -/
lemma read_iff {r : LogRecord} : read bs = .ok (r, rest) ↔ Writable r ∧ bs = encode r ++ rest := by
  simp only [encode, List.append_assoc]
  constructor
  · intro h
    obtain ⟨tx, bs₁, htx, h⟩ := bind_eq_ok_iff.mp h
    obtain ⟨d, bs₂, hd, h⟩ := bind_eq_ok_iff.mp h
    obtain ⟨n, bs₃, hn, h⟩ := bind_eq_ok_iff.mp h
    obtain ⟨ids, bs₄, hids, h⟩ := bind_eq_ok_iff.mp h
    obtain ⟨time, bs₅, htime, h⟩ := bind_eq_ok_iff.mp h
    obtain ⟨rfl, rfl⟩ := pure_eq_ok_iff.mp h
    obtain rfl := readTxId_iff.mp htx
    obtain rfl := readDecision_iff.mp hd
    obtain ⟨hfit, rfl⟩ := readNat_iff.mp hn
    obtain ⟨rfl, hall, rfl⟩ := readNames_iff.mp hids
    obtain ⟨hlt, rfl⟩ := readNat_iff.mp htime
    -- the timestamp has eight bytes, and no bit of it is lost
    rw [Bytes.capacity_eight] at hlt
    have htoNat : time.toUInt64.toNat = time := Nat.mod_eq_of_lt hlt
    refine ⟨⟨hfit, hall⟩, ?_⟩
    rw [htoNat]
  · rintro ⟨⟨hfit, hall⟩, rfl⟩
    have htime : r.timestamp.toNat < Bytes.capacity 8 := by
      rw [Bytes.capacity_eight]
      exact r.timestamp.toNat_lt
    refine bind_eq_ok_iff.mpr ⟨r.tx, _, readTxId_iff.mpr rfl, ?_⟩
    refine bind_eq_ok_iff.mpr ⟨r.decision, _, readDecision_iff.mpr rfl, ?_⟩
    refine bind_eq_ok_iff.mpr ⟨r.pending.length, _, readNat_iff.mpr ⟨hfit, rfl⟩, ?_⟩
    refine bind_eq_ok_iff.mpr ⟨r.pending, _, readNames_iff.mpr ⟨rfl, hall, rfl⟩, ?_⟩
    refine bind_eq_ok_iff.mpr ⟨r.timestamp.toNat, _, readNat_iff.mpr ⟨htime, rfl⟩, ?_⟩
    refine pure_eq_ok_iff.mpr ⟨?_, rfl⟩
    simp

lemma length_name_le {id : ResourceId} {ids : List ResourceId} (h : id ∈ ids) :
    (Utf8.encode id.name).length ≤ (ids.flatMap name).length := by
  induction ids with
  | nil => cases h
  | cons q qs ih =>
    rw [List.flatMap_cons, List.length_append]
    rcases List.mem_cons.mp h with rfl | h
    · rw [name, blob, List.length_append]
      omega
    · have := ih h
      omega

lemma length_le_flatMap_name (ids : List ResourceId) : ids.length ≤ (ids.flatMap name).length := by
  induction ids with
  | nil => simp
  | cons q qs ih =>
    rw [List.flatMap_cons, List.length_append, List.length_cons, name, blob, List.length_append,
      Bytes.length_ofNat]
    omega

/-- What takes no more bytes than eight bytes can count has lengths that eight bytes can state. -/
lemma writable_of_length {r : LogRecord} (h : (encode r).length < Bytes.capacity 8) :
    Writable r := by
  have hnames : (r.pending.flatMap name).length ≤ (encode r).length := by
    simp only [encode, List.length_append]
    omega
  refine ⟨?_, fun id hid => ?_⟩
  · have := length_le_flatMap_name r.pending
    omega
  · have := length_name_le hid
    unfold NameFits
    omega

end Payload

end TwoPhaseCommit
