import Credentials.Proofs.Hex.Reading
import Credentials.Proofs.Step
import Credentials.Proofs.Text
import Credentials.Proofs.Trust.Growth
import Mathlib.Data.List.Forall2

/-!
# The key ring that a configuration describes

A key ring is built exactly from entries with valid names, all different, each with one source that
gives a key. It then holds the listed keys and no others. Its current key is the one that is set, or
else that of the first entry that can sign.
-/

namespace Credentials

namespace KeyEntry

variable {env : Environment} {e : KeyEntry} {m : KeyMaterial} {r s : KeyRecord}
  {ring ring' : KeyRing}

/-- One source is set, and what it holds is a key: both halves from a seed, or the public half. -/
inductive Gives (env : Environment) (e : KeyEntry) : KeyMaterial → Prop where
  | seed {hex : String} {pair : KeyPair} : e.seedHex = some hex → e.seedVariable = none →
      e.publicKeyHex = none → KeyPair.ofSeedHex hex = .ok pair → Gives env e (.ofPair pair)
  | seedVariable {v hex : String} {pair : KeyPair} : e.seedHex = none → e.seedVariable = some v →
      e.publicKeyHex = none → env v = some hex → KeyPair.ofSeedHex hex = .ok pair →
      Gives env e (.ofPair pair)
  | publicKey {hex : String} {key : PublicKey} : e.seedHex = none → e.seedVariable = none →
      e.publicKeyHex = some hex → PublicKey.ofHex hex = .ok key → Gives env e (.publicOnly key)

/-- The record that an entry stands for. -/
structure Describes (env : Environment) (e : KeyEntry) (r : KeyRecord) : Prop where
  id : KeyId.ofName e.keyId = .ok r.id
  status : e.status = r.status
  material : e.Gives env r.material

/-- The entry of a key that is given by a seed. -/
def HasSeed (e : KeyEntry) : Prop := e.seedHex.isSome = true ∨ e.seedVariable.isSome = true

/-- The entry of an active key with a seed. -/
def Signs (e : KeyEntry) : Prop := e.status = .active ∧ e.HasSeed

instance (e : KeyEntry) : Decidable e.HasSeed := inferInstanceAs (Decidable (_ ∨ _))

instance (e : KeyEntry) : Decidable e.Signs := inferInstanceAs (Decidable (_ ∧ _))

theorem gives_iff (id : KeyId) :
    e.Gives env m ↔ ∃ source, e.source? = some source ∧ source.material env id = .ok m := by
  constructor
  · intro h
    cases h with
    | seed hseed hvariable hpublic hpair =>
      exact ⟨_, by rw [source?, hseed, hvariable, hpublic], by rw [KeySource.material, hpair]; rfl⟩
    | seedVariable hseed hvariable hpublic henv hpair =>
      refine ⟨_, by rw [source?, hseed, hvariable, hpublic], ?_⟩
      rw [KeySource.material, henv]
      dsimp only
      rw [hpair]
      rfl
    | publicKey hseed hvariable hpublic hkey =>
      exact ⟨_, by rw [source?, hseed, hvariable, hpublic], by rw [KeySource.material, hkey]; rfl⟩
  · rintro ⟨source, hsource, hmaterial⟩
    unfold source? at hsource
    split at hsource
    · next hex hseed hvariable hpublic =>
      obtain rfl := Option.some.inj hsource
      rw [KeySource.material] at hmaterial
      obtain ⟨pair, hpair, rfl⟩ := except_map_eq_ok_iff.mp hmaterial
      exact .seed hseed hvariable hpublic (mapError_eq_ok_iff.mp hpair)
    · next v hseed hvariable hpublic =>
      obtain rfl := Option.some.inj hsource
      unfold KeySource.material at hmaterial
      dsimp only at hmaterial
      split at hmaterial
      · cases hmaterial
      · next hex henv =>
        obtain ⟨pair, hpair, rfl⟩ := except_map_eq_ok_iff.mp hmaterial
        exact .seedVariable hseed hvariable hpublic henv (mapError_eq_ok_iff.mp hpair)
    · next hex hseed hvariable hpublic =>
      obtain rfl := Option.some.inj hsource
      rw [KeySource.material] at hmaterial
      obtain ⟨key, hkey, rfl⟩ := except_map_eq_ok_iff.mp hmaterial
      exact .publicKey hseed hvariable hpublic (mapError_eq_ok_iff.mp hkey)
    · cases hsource

/-- A private half is held exactly for a seed. -/
theorem Gives.hasSeed_iff (h : e.Gives env m) : m.keyPair?.isSome = true ↔ e.HasSeed := by
  unfold HasSeed
  cases h with
  | seed hseed hvariable hpublic hpair => simp [hseed, KeyMaterial.ofPair, KeyMaterial.keyPair?]
  | seedVariable hseed hvariable hpublic henv hpair =>
    simp [hvariable, KeyMaterial.ofPair, KeyMaterial.keyPair?]
  | publicKey hseed hvariable hpublic hkey => simp [hseed, hvariable, KeyMaterial.keyPair?]

theorem Gives.unique {n : KeyMaterial} (h : e.Gives env m) (h' : e.Gives env n) : m = n := by
  obtain ⟨source, hsource, hm⟩ := (gives_iff ⟨e.keyId⟩).mp h
  obtain ⟨source', hsource', hn⟩ := (gives_iff ⟨e.keyId⟩).mp h'
  obtain rfl := Option.some.inj (hsource.symm.trans hsource')
  exact Except.ok.inj (hm.symm.trans hn)

theorem Describes.id_eq (h : e.Describes env r) : r.id = ⟨e.keyId⟩ := KeyId.ofName_eq_ok h.id

theorem Describes.signs_iff (h : e.Describes env r) : r.Signs ↔ e.Signs := by
  rw [KeyRecord.Signs, Signs, h.status, h.material.hasSeed_iff]

theorem Describes.unique (h : e.Describes env r) (h' : e.Describes env s) : r = s := by
  have hid := Except.ok.inj (h.id.symm.trans h'.id)
  have hstatus := h.status.symm.trans h'.status
  have hmaterial := h.material.unique h'.material
  cases r
  cases s
  rw [KeyRecord.mk.injEq]
  exact ⟨hid, hstatus, hmaterial⟩

/-- An entry adds the record that it describes, if its name is not taken. -/
theorem addTo_eq_ok_iff (hring : ring.CurrentListed) : e.addTo env ring = .ok ring' ↔
    ∃ r, e.Describes env r ∧ ring.find? r.id = none ∧ ring.add r = ring' := by
  unfold addTo
  rw [except_bind_eq_ok_iff]
  constructor
  · rintro ⟨id, hid, h⟩
    have hid := mapError_eq_ok_iff.mp hid
    split at h
    · cases h
    · next source hsource =>
      obtain ⟨m, hm, h⟩ := except_bind_eq_ok_iff.mp h
      obtain ⟨hnew, rfl⟩ := (KeyRing.insertMaterial_eq_ok_iff hring).mp (mapError_eq_ok_iff.mp h)
      exact ⟨⟨id, e.status, m⟩, ⟨hid, rfl, (gives_iff id).mpr ⟨source, hsource, hm⟩⟩, hnew, rfl⟩
  · rintro ⟨⟨id, status, m⟩, ⟨hid, hstatus, hm⟩, hnew, rfl⟩
    obtain ⟨source, hsource, hm⟩ := (gives_iff id).mp hm
    refine ⟨id, mapError_eq_ok_iff.mpr hid, ?_⟩
    dsimp only at hstatus hm
    rw [hsource, hstatus]
    dsimp only
    rw [hm]
    exact mapError_eq_ok_iff.mpr ((KeyRing.insertMaterial_eq_ok_iff hring).mpr ⟨hnew, rfl⟩)

/-- Entries add the records that they describe, one after the other. -/
theorem foldlM_addTo_eq_ok_iff {es : List KeyEntry} (hring : ring.CurrentListed) :
    es.foldlM (addTo env) ring = .ok ring' ↔
      ∃ rs, List.Forall₂ (Describes env) es rs ∧ ring.Fresh rs ∧
        rs.foldl KeyRing.add ring = ring' := by
  induction es generalizing ring with
  | nil =>
    rw [List.foldlM_nil]
    constructor
    · intro h
      exact ⟨[], .nil, ⟨nofun, List.nodup_nil⟩, Except.ok.inj h⟩
    · rintro ⟨rs, hrs, -, rfl⟩
      cases hrs
      rfl
  | cons e es ih =>
    rw [List.foldlM_cons, except_bind_eq_ok_iff]
    constructor
    · rintro ⟨between, hfirst, hrest⟩
      obtain ⟨r, hr, hnew, rfl⟩ := (addTo_eq_ok_iff hring).mp hfirst
      obtain ⟨rs, hrs, hfresh, rfl⟩ := (ih (KeyRing.currentListed_add hring r)).mp hrest
      exact ⟨r :: rs, .cons hr hrs, KeyRing.fresh_cons_iff.mpr ⟨hnew, hfresh⟩, rfl⟩
    · rintro ⟨rs, hrs, hfresh, rfl⟩
      cases hrs with
      | @cons _ r _ rs hr hrs =>
        obtain ⟨hnew, hfresh⟩ := KeyRing.fresh_cons_iff.mp hfresh
        exact ⟨ring.add r, (addTo_eq_ok_iff hring).mpr ⟨r, hr, hnew, rfl⟩,
          (ih (KeyRing.currentListed_add hring r)).mpr ⟨rs, hrs, hfresh, rfl⟩⟩

/-! The records that a list of entries stands for. -/

variable {es : List KeyEntry} {rs : List KeyRecord}

theorem map_id_of_describes (h : List.Forall₂ (Describes env) es rs) :
    rs.map KeyRecord.id = (es.map keyId).map KeyId.mk := by
  induction h with
  | nil => rfl
  | cons hr _ ih => rw [List.map_cons, List.map_cons, List.map_cons, ih, hr.id_eq]

theorem find?_signs_of_describes (h : List.Forall₂ (Describes env) es rs) :
    (rs.find? fun r => r.Signs).map KeyRecord.id
      = ((es.find? fun e => e.Signs).map keyId).map KeyId.mk := by
  induction h with
  | nil => rfl
  | @cons e r es rs hr _ ih =>
    by_cases hsigns : e.Signs
    · have hsigns' := hr.signs_iff.mpr hsigns
      simp [hsigns, hsigns', hr.id_eq]
    · have hsigns' := mt hr.signs_iff.mp hsigns
      simpa [hsigns, hsigns'] using ih

theorem mem_iff_of_describes (h : List.Forall₂ (Describes env) es rs) :
    r ∈ rs ↔ ∃ e ∈ es, e.Describes env r := by
  induction h with
  | nil => simp
  | @cons e s es rs hs _ ih =>
    have heq : r = s ↔ e.Describes env r :=
      ⟨fun heq => by rwa [heq], fun hr => hr.unique hs⟩
    rw [List.mem_cons, ih, heq]
    simp

/-- Entries stand for records if each has a valid name and a source that gives a key. -/
theorem exists_describes_iff : (∃ rs, List.Forall₂ (Describes env) es rs) ↔
    ∀ e ∈ es, (∃ id, KeyId.ofName e.keyId = .ok id) ∧ ∃ m, e.Gives env m := by
  induction es with
  | nil => exact iff_of_true ⟨[], .nil⟩ nofun
  | cons e es ih =>
    rw [List.forall_mem_cons, ← ih]
    constructor
    · rintro ⟨rs, hrs⟩
      cases hrs with
      | cons hr hrs => exact ⟨⟨⟨_, hr.id⟩, _, hr.material⟩, _, hrs⟩
    · rintro ⟨⟨⟨id, hid⟩, m, hm⟩, rs, hrs⟩
      exact ⟨⟨id, e.status, m⟩ :: rs, .cons ⟨hid, rfl, hm⟩ hrs⟩

end KeyEntry

namespace TrustConfig

open KeyEntry (Describes)

variable {c : TrustConfig} {env : Environment} {ring : KeyRing} {rs : List KeyRecord}

/-- The name of the current key: the one that is set, or that of the first entry that can sign. -/
def currentName (c : TrustConfig) : Option String :=
  c.currentKey.or ((c.keys.find? fun e => e.Signs).map KeyEntry.keyId)

/-- A list of keys that can be told apart and used, with a current key that can sign if one is
set. -/
structure KeysUsable (c : TrustConfig) (env : Environment) : Prop where
  named : ∀ e ∈ c.keys, ∃ id, KeyId.ofName e.keyId = .ok id
  distinct : (c.keys.map KeyEntry.keyId).Nodup
  given : ∀ e ∈ c.keys, ∃ m, e.Gives env m
  current : ∀ name, c.currentKey = some name → ∃ e ∈ c.keys, e.keyId = name ∧ e.Signs

theorem nodup_ids_iff (h : List.Forall₂ (Describes env) c.keys rs) :
    (rs.map KeyRecord.id).Nodup ↔ (c.keys.map KeyEntry.keyId).Nodup := by
  rw [KeyEntry.map_id_of_describes h]
  exact List.nodup_map_iff fun _ _ heq => congrArg KeyId.name heq

theorem find?_eq_some_iff (h : List.Forall₂ (Describes env) c.keys rs)
    (hnodup : (c.keys.map KeyEntry.keyId).Nodup) {current : Option KeyId} {id : KeyId}
    {r : KeyRecord} : KeyRing.find? ⟨rs, current⟩ id = some r ↔
      ∃ e ∈ c.keys, e.keyId = id.name ∧ e.Describes env r := by
  rw [KeyRing.find?_eq_some_iff_mem ((nodup_ids_iff h).mpr hnodup)]
  dsimp only
  rw [KeyEntry.mem_iff_of_describes h]
  constructor
  · rintro ⟨⟨e, he, hr⟩, rfl⟩
    exact ⟨e, he, by rw [hr.id_eq], hr⟩
  · rintro ⟨e, he, hid, hr⟩
    exact ⟨⟨e, he, hr⟩, by rw [hr.id_eq, hid]⟩

/-- The key of a name can sign if the entry of the name can. -/
theorem exists_signs_iff (h : List.Forall₂ (Describes env) c.keys rs)
    (hnodup : (c.keys.map KeyEntry.keyId).Nodup) {current : Option KeyId} {id : KeyId} :
    (∃ r, KeyRing.find? ⟨rs, current⟩ id = some r ∧ r.Signs) ↔
      ∃ e ∈ c.keys, e.keyId = id.name ∧ e.Signs := by
  simp only [find?_eq_some_iff h hnodup]
  constructor
  · rintro ⟨r, ⟨e, he, hid, hr⟩, hsigns⟩
    exact ⟨e, he, hid, hr.signs_iff.mp hsigns⟩
  · rintro ⟨e, he, hid, hsigns⟩
    obtain ⟨⟨k, hk⟩, m, hm⟩ := KeyEntry.exists_describes_iff.mp ⟨rs, h⟩ e he
    have hr : e.Describes env ⟨k, e.status, m⟩ := ⟨hk, rfl, hm⟩
    exact ⟨_, ⟨e, he, hid, hr⟩, hr.signs_iff.mpr hsigns⟩

/-- The ring before the current key is set. -/
theorem foldlM_keys_eq_ok_iff : c.keys.foldlM (KeyEntry.addTo env) KeyRing.empty = .ok ring ↔
    ∃ rs, List.Forall₂ (Describes env) c.keys rs ∧ (c.keys.map KeyEntry.keyId).Nodup ∧
      ⟨rs, ((c.keys.find? fun e => e.Signs).map KeyEntry.keyId).map KeyId.mk⟩ = ring := by
  rw [KeyEntry.foldlM_addTo_eq_ok_iff KeyRing.currentListed_empty]
  refine exists_congr fun rs => and_congr_right fun hrs => ?_
  rw [KeyRing.foldl_add, KeyEntry.find?_signs_of_describes hrs, KeyRing.Fresh, nodup_ids_iff hrs]
  exact and_congr_left' (and_iff_right fun r _ => rfl)

theorem keyRing_of_currentKey {name : String} (hname : c.currentKey = some name) :
    c.keyRing env = .ok ring ↔ ∃ between id,
      c.keys.foldlM (KeyEntry.addTo env) KeyRing.empty = .ok between ∧
      KeyId.ofName name = .ok id ∧ between.setCurrent id = .ok ring := by
  unfold keyRing
  simp only [hname, except_bind_eq_ok_iff, mapError_eq_ok_iff, exists_and_left]

/-- What is built, and from which lists of keys. -/
theorem keyRing_eq_ok_iff : c.keyRing env = .ok ring ↔ c.KeysUsable env ∧
    ∃ rs, List.Forall₂ (Describes env) c.keys rs ∧ ⟨rs, c.currentName.map KeyId.mk⟩ = ring := by
  have hentries : (∃ rs, List.Forall₂ (Describes env) c.keys rs) ↔
      (∀ e ∈ c.keys, ∃ id, KeyId.ofName e.keyId = .ok id) ∧ ∀ e ∈ c.keys, ∃ m, e.Gives env m := by
    rw [KeyEntry.exists_describes_iff]
    exact forall₂_and
  cases hname : c.currentKey with
  | none =>
    have hcurrent : c.currentName = (c.keys.find? fun e => e.Signs).map KeyEntry.keyId := by
      rw [currentName, hname, Option.none_or]
    have hbuilt : c.keyRing env = c.keys.foldlM (KeyEntry.addTo env) KeyRing.empty := by
      unfold keyRing
      rw [hname]
      exact bind_pure _
    rw [hbuilt, foldlM_keys_eq_ok_iff, hcurrent]
    constructor
    · rintro ⟨rs, hrs, hnodup, heq⟩
      obtain ⟨hnamed, hgiven⟩ := hentries.mp ⟨rs, hrs⟩
      exact ⟨⟨hnamed, hnodup, hgiven, fun name h => by rw [hname] at h; cases h⟩, rs, hrs, heq⟩
    · rintro ⟨husable, rs, hrs, heq⟩
      exact ⟨rs, hrs, husable.distinct, heq⟩
  | some name =>
    have hcurrent : c.currentName = some name := by
      rw [currentName, hname, Option.some_or]
    rw [keyRing_of_currentKey hname, hcurrent]
    constructor
    · rintro ⟨between, id, hbetween, hid, hset⟩
      obtain rfl := KeyId.ofName_eq_ok hid
      obtain ⟨rs, hrs, hnodup, rfl⟩ := foldlM_keys_eq_ok_iff.mp hbetween
      obtain ⟨hsigns, rfl⟩ := KeyRing.setCurrent_eq_ok_iff.mp hset
      obtain ⟨hnamed, hgiven⟩ := hentries.mp ⟨rs, hrs⟩
      refine ⟨⟨hnamed, hnodup, hgiven, fun name' h => ?_⟩, rs, hrs, rfl⟩
      obtain rfl := Option.some.inj (hname.symm.trans h)
      exact (exists_signs_iff hrs hnodup).mp hsigns
    · rintro ⟨husable, rs, hrs, rfl⟩
      obtain ⟨e, he, rfl, hsigns⟩ := husable.current name hname
      obtain ⟨id, hid⟩ := husable.named e he
      obtain rfl := KeyId.ofName_eq_ok hid
      refine ⟨_, _, foldlM_keys_eq_ok_iff.mpr ⟨rs, hrs, husable.distinct, rfl⟩, hid, ?_⟩
      exact KeyRing.setCurrent_eq_ok_iff.mpr
        ⟨(exists_signs_iff hrs husable.distinct).mpr ⟨e, he, rfl, hsigns⟩, rfl⟩

/-- The ring that a configuration is built for: exactly the listed keys, each as its entry describes
it and with a private half exactly if it is given by a seed, and a current key that is active and
given by a seed. -/
structure Holds (c : TrustConfig) (env : Environment) (ring : KeyRing) : Prop where
  listed : ∀ id, (∃ r, ring.find? id = some r) ↔ ∃ e ∈ c.keys, e.keyId = id.name
  described : ∀ e ∈ c.keys, ∀ r, ring.find? ⟨e.keyId⟩ = some r →
    e.Describes env r ∧ (r.material.keyPair?.isSome = true ↔ e.HasSeed)
  current : ring.current = c.currentName.map KeyId.mk
  signs : ∀ e ∈ c.keys, ring.current = some ⟨e.keyId⟩ → e.Signs

theorem eq_of_keyId_eq (hnodup : (c.keys.map KeyEntry.keyId).Nodup) {e e' : KeyEntry}
    (he : e ∈ c.keys) (he' : e' ∈ c.keys) (h : e.keyId = e'.keyId) : e = e' :=
  List.inj_on_of_nodup_map hnodup he he' h

theorem signs_of_currentName (husable : c.KeysUsable env) {name : String}
    (h : c.currentName = some name) : ∃ e ∈ c.keys, e.keyId = name ∧ e.Signs := by
  rcases Option.or_eq_some_iff.mp h with hset | ⟨-, hfirst⟩
  · exact husable.current name hset
  · obtain ⟨e, he, rfl⟩ := Option.map_eq_some_iff.mp hfirst
    exact ⟨e, List.mem_of_find?_eq_some he, rfl, by simpa using List.find?_some he⟩

theorem holds_of_keyRing (h : c.keyRing env = .ok ring) : c.Holds env ring := by
  obtain ⟨husable, rs, hrs, rfl⟩ := keyRing_eq_ok_iff.mp h
  have hnodup := husable.distinct
  refine ⟨fun id => ?_, fun e he r hr => ?_, rfl, fun e he hcurrent => ?_⟩
  · simp only [find?_eq_some_iff hrs hnodup]
    constructor
    · rintro ⟨r, e, he, hid, -⟩
      exact ⟨e, he, hid⟩
    · rintro ⟨e, he, hid⟩
      obtain ⟨k, hk⟩ := husable.named e he
      obtain ⟨m, hm⟩ := husable.given e he
      exact ⟨⟨k, e.status, m⟩, e, he, hid, hk, rfl, hm⟩
  · obtain ⟨e', he', hid, hdescribes⟩ := (find?_eq_some_iff hrs hnodup).mp hr
    obtain rfl := eq_of_keyId_eq hnodup he' he hid
    exact ⟨hdescribes, hdescribes.material.hasSeed_iff⟩
  · obtain ⟨name, hname, hid⟩ := Option.map_eq_some_iff.mp hcurrent
    obtain ⟨e', he', hid', hsigns⟩ := signs_of_currentName husable hname
    obtain rfl := eq_of_keyId_eq hnodup he' he (hid'.trans (congrArg KeyId.name hid))
    exact hsigns

/-- A ring is built exactly from a usable list of keys, and it holds what the list describes. -/
theorem keyRing_described (c : TrustConfig) (env : Environment) :
    ((∃ ring, c.keyRing env = .ok ring) ↔ c.KeysUsable env) ∧
      ∀ ring, c.keyRing env = .ok ring → c.Holds env ring := by
  refine ⟨?_, fun ring => holds_of_keyRing⟩
  constructor
  · rintro ⟨ring, h⟩
    exact (keyRing_eq_ok_iff.mp h).1
  · intro husable
    obtain ⟨rs, hrs⟩ := KeyEntry.exists_describes_iff.mpr fun e he =>
      ⟨husable.named e he, husable.given e he⟩
    exact ⟨_, keyRing_eq_ok_iff.mpr ⟨husable, rs, hrs, rfl⟩⟩

def sampleHex : String := Hex.encode (List.replicate 32 9)

/-- Three keys of one text: a retired seed, a public half, and a seed in a variable. -/
def sampleKeys : TrustConfig :=
  ⟨none, false, none, [⟨"k1", .retired, some sampleHex, none, none⟩,
    ⟨"k2", .active, none, none, some sampleHex⟩, ⟨"k3", .active, none, some "SEED", none⟩], [], none⟩

/-- The first two keys are passed over. -/
theorem keyRing_described_sample : ∃ ring,
    sampleKeys.keyRing (fun _ => some sampleHex) = .ok ring ∧ ring.current = some ⟨"k3"⟩ := by
  have hseed : KeyPair.ofSeedHex sampleHex = .ok ⟨List.replicate 32 9, rfl⟩ :=
    KeyPair.ofSeedHex_eq_ok_iff.mpr (Hex.decode_encode _)
  have hkey : PublicKey.ofHex sampleHex = .ok ⟨List.replicate 32 9, rfl⟩ :=
    PublicKey.ofHex_eq_ok_iff.mpr (Hex.decode_encode _)
  have husable : sampleKeys.KeysUsable fun _ => some sampleHex := by
    refine ⟨?_, by decide, ?_, nofun⟩
    · exact List.forall_mem_cons.mpr ⟨⟨_, rfl⟩, List.forall_mem_cons.mpr ⟨⟨_, rfl⟩,
        List.forall_mem_singleton.mpr ⟨_, rfl⟩⟩⟩
    · exact List.forall_mem_cons.mpr ⟨⟨_, .seed rfl rfl rfl hseed⟩,
        List.forall_mem_cons.mpr ⟨⟨_, .publicKey rfl rfl rfl hkey⟩,
          List.forall_mem_singleton.mpr ⟨_, .seedVariable rfl rfl rfl rfl hseed⟩⟩⟩
  obtain ⟨hbuilt, hholds⟩ := keyRing_described sampleKeys fun _ => some sampleHex
  obtain ⟨ring, hring⟩ := hbuilt.mpr husable
  exact ⟨ring, hring, (hholds ring hring).current⟩

end TrustConfig
end Credentials
