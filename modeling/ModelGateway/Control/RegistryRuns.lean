import ModelGateway.Control.RegistryService
import ModelGateway.Lib.Indexed

/-!
This module contains what stays true of a component's row from its registration on, whatever is called later.
-/

namespace ModelGateway.Control

open List Except
open Option (bind_eq_bind bind_eq_some_iff some)

open FineTune (Failure)
open Signing (Signature TrustStore)
open TextColumn (varchar space Fits varchar_eq_some varchar_eq_self varchar_ne_nil fits_iff)

section

theorem mergeSort_idem (l : List Str)
    : (l.mergeSort fun s t => s ≤ t).mergeSort (fun s t => s ≤ t) = l.mergeSort fun s t => s ≤ t := by
  apply mergeSort_of_pairwise
  apply pairwise_mergeSort
  . intro a b c hab hbc
    rw [decide_eq_true_eq] at hab hbc ⊢
    exact List.le_trans hab hbc
  . intro a b
    simpa using List.le_total a b

@[simp]
theorem length_jsonString_spaces (s : Str) (k : Nat)
    : (jsonString (s ++ replicate k space)).length = (jsonString s).length + k := by
  have hspaces : (replicate k space).flatMap jsonByte = replicate k space := by
    induction k with
    | zero => rfl
    | succ k ih =>
      rw [replicate_succ, flatMap_cons, ih]
      rfl
  unfold jsonString
  rw [flatMap_append, hspaces]
  simp only [length_append, length_replicate]
  omega

theorem length_jsonStrings_mergeSort (l : List Str)
    : (jsonStrings (l.mergeSort fun s t => s ≤ t)).length
        =
      (l.map fun s => (jsonString s).length).sum + (l.length - 1) + 2 := by
  have hperm := mergeSort_perm l fun s t => s ≤ t
  have hsum := (hperm.map fun s => (jsonString s).length).sum_eq
  unfold jsonStrings
  rw [length_append, length_append]
  change 1 + ([0x2c].intercalate _).length + 1 = _
  rw [List.length_intercalate_singleton, map_map, length_map, hperm.length_eq]
  change 1 + (((l.mergeSort fun s t => s ≤ t).map fun s => (jsonString s).length).sum + _) + 1 = _
  omega

theorem length_jsonObject (members : List (Str × Str))
    : (jsonObject members).length
        =
      (members.map fun member => (jsonString member.1).length + member.2.length + 1).sum
        + (members.length - 1) + 2 := by
  unfold jsonObject
  rw [length_append, length_append]
  change 1 + ([0x2c].intercalate _).length + 1 = _
  rw [List.length_intercalate_singleton, map_map, length_map]
  have hsum : ∀ f : Str × Str → Nat,
      (∀ member, f member = (jsonString member.1).length + member.2.length + 1) →
      (members.map f).sum
        = (members.map fun member => (jsonString member.1).length + member.2.length + 1).sum :=
    fun f hf => congrArg List.sum (map_congr_left fun member _ => hf member)
  rw [hsum _ ?_]
  . omega
  . intro member
    simp only [Function.comp_apply, length_append]
    change _ + 1 + _ = _
    omega

theorem length_payload (m : Manifest) (capabilities : List Str) (image : Str)
    : ({ m with capabilities := capabilities, image := image } : Manifest).payload.length
          + ((jsonStrings (m.capabilities.mergeSort fun s t => s ≤ t)).length
            + (jsonString m.image).length) = m.payload.length
        + ((jsonStrings (capabilities.mergeSort fun s t => s ≤ t)).length
          + (jsonString image).length) := by
  unfold Manifest.payload
  rw [length_jsonObject, length_jsonObject]
  simp only [map_cons, map_nil, sum_cons, sum_nil, length_cons, length_nil]
  omega

end

section

structure Manifest.Stored (m s : Manifest) : Prop where
  rest : s = { m with image := s.image, capabilities := s.capabilities }
  image : varchar 512 m.image = some s.image
  capabilities : List.Forall₂ (fun c c' => varchar 64 c = some c') m.capabilities s.capabilities

theorem Manifest.stored_of_columns {rt : Runtime} {m s : Manifest} (hvalid : m.Valid rt)
    (h : m.columns = some s)
    : m.Stored s := by
  unfold Manifest.columns at h
  simp only [bind_eq_bind, bind_eq_some_iff] at h
  rcases h with ⟨name, hname, version, hversion, _, himage, moduleDigest, hmodule,
    capabilities, hcapabilities, h⟩
  split at h
  . have hs := some.inj h
    rw [varchar_eq_self hname (getLast?_ne_space_of_isComponentName hvalid.name),
      varchar_eq_self hversion (getLast?_ne_space_of_isSemver hvalid.version),
      varchar_eq_self hmodule (getLast?_ne_space_of_validateModule hvalid.moduleDigest)] at hs
    subst hs
    exact ⟨rfl, himage, List.mapM_eq_some_iff_forall₂.mp hcapabilities⟩
  . simp at h

def Manifest.Held (m : Manifest) : Prop :=
  (∀ c ∈ m.capabilities, Fits 64 c) ∧ Fits 512 m.image

theorem forall_fits_iff {l l' : List Str} (h : List.Forall₂ (fun c c' => varchar 64 c = some c') l l')
    : (∀ c ∈ l, Fits 64 c) ↔ l' = l := by
  induction h with
  | nil => simp
  | cons hc _ ih => rw [forall_mem_cons, ih, fits_iff hc, List.cons.injEq]

theorem sum_length_of_stored {l l' : List Str}
    (h : List.Forall₂ (fun c c' => varchar 64 c = some c') l l')
    : (l'.map fun c => (jsonString c).length).sum ≤ (l.map fun c => (jsonString c).length).sum ∧
      ((l'.map fun c => (jsonString c).length).sum = (l.map fun c => (jsonString c).length).sum →
        l' = l) := by
  induction h with
  | nil => simp
  | cons hc _ ih =>
    rcases varchar_eq_some hc with ⟨k, rfl, _⟩
    rcases ih with ⟨hle, heq⟩
    simp only [map_cons, sum_cons, length_jsonString_spaces]
    refine ⟨by omega, fun h => ?_⟩
    have hk : k = 0 := by omega
    subst hk
    rw [heq (by omega)]
    simp

theorem Manifest.Stored.payload_eq_iff {m s : Manifest} (h : m.Stored s)
    : s.payload = m.payload ↔ m.Held := by
  have hlength := length_payload m s.capabilities s.image
  rw [← h.rest, length_jsonStrings_mergeSort, length_jsonStrings_mergeSort,
    h.capabilities.length_eq] at hlength
  rcases sum_length_of_stored h.capabilities with ⟨hle, heq⟩
  rcases varchar_eq_some h.image with ⟨k, himage, _⟩
  have hjson := length_jsonString_spaces s.image k
  rw [← himage] at hjson
  unfold Manifest.Held
  rw [forall_fits_iff h.capabilities, fits_iff h.image]
  constructor
  . intro hpayload
    rw [hpayload] at hlength
    refine ⟨heq (by omega), ?_⟩
    have hk : k = 0 := by omega
    rw [himage, hk]
    simp
  . rintro ⟨hcapabilities, himage'⟩
    rw [h.rest, hcapabilities, himage']

end

section

variable {rt : Runtime}

variable {a : Admission}

theorem Admission.postInit_eq_ok_iff {a' : Admission}
    : a.postInit = .ok a'
        ↔
      a.runner ≠ [] ∧ a.suiteVersion ≠ [] ∧ a.manifestDigest.length = 64 ∧ a = a' := by
  unfold Admission.postInit
  simp only [ite_error_eq_ok_iff, ok.injEq, not_not]

theorem digest_getLast? (m : Manifest) : (m.digest rt.sha256).getLast? ≠ some space := by
  apply getLast?_ne_space_of_not_mem
  apply Pii.not_mem_hexEncode
  intro n hn
  unfold Str.quoteByte.hexDigit space
  split <;> grind

structure ComponentRow.Sound (rt : Runtime) (row : ComponentRow) : Prop where
  valid : row.manifest.Valid rt
  signature : ∃ signature, row.toSignature = .ok signature
  admissions : ∀ a ∈ row.admissions,
    a.postInit = .ok a ∧ a.manifestDigest = row.manifest.digest rt.sha256 ∧ a.suite = row.port
  active : row.status = .active → ∃ a, row.admissions.getLast? = some a ∧ a.passed = true

variable {row : ComponentRow}

theorem ComponentRow.Sound.toComponent (h : row.Sound rt) : ∃ c, row.toComponent rt = .ok c := by
  rcases h.signature with ⟨signature, hsignature⟩
  have hmanifest : row.toManifest rt = .ok row.manifest :=
    Manifest.postInit_eq_ok_iff.mpr ⟨rfl, h.valid⟩
  have hadmission : row.toAdmission = .ok row.admissions.getLast? := by
    unfold ComponentRow.toAdmission
    cases hlast : row.admissions.getLast? with
    | none => rfl
    | some a =>
      dsimp only
      rw [(h.admissions a (mem_of_getLast? hlast)).1]
      rfl
  have hadmitted : row.status = .active →
      Component.isAdmitted rt.sha256 ⟨row.manifest, row.status, row.admissions.getLast?, signature⟩
        = true := by
    intro hactive
    rcases h.active hactive with ⟨a, hlast, hpassed⟩
    rcases h.admissions a (mem_of_getLast? hlast) with ⟨_, hdigest, hsuite⟩
    simp [Component.isAdmitted, hlast, hpassed, hdigest, hsuite, ComponentRow.manifest]
  refine ⟨⟨row.manifest, row.status, row.admissions.getLast?, signature⟩, ?_⟩
  unfold ComponentRow.toComponent
  simp only [bind_eq_ok_iff]
  refine ⟨_, hmanifest, _, hadmission, _, hsignature, ?_⟩
  unfold Component.postInit
  rw [if_neg]
  rintro ⟨hactive, hnot⟩
  simp [hadmitted hactive] at hnot

structure ComponentRow.Follows (row row' : ComponentRow) : Prop where
  manifest : row'.manifest = row.manifest
  digest : row'.manifestDigest = row.manifestDigest
  retired : row.status = .retired → row'.status = .retired

theorem ComponentRow.Follows.refl (row : ComponentRow) : row.Follows row :=
  ⟨rfl, rfl, id⟩

theorem ComponentRow.Follows.trans {a b c : ComponentRow} (hab : a.Follows b) (hbc : b.Follows c)
    : a.Follows c :=
  ⟨hbc.manifest.trans hab.manifest, hbc.digest.trans hab.digest, fun h => hbc.retired (hab.retired h)⟩

theorem Admission.stored_of_columns {s : Admission} (ha : a.postInit = .ok a)
    (hdigest : a.manifestDigest.getLast? ≠ some space) (h : a.columns = some s)
    : s.postInit = .ok s ∧ s.manifestDigest = a.manifestDigest ∧ s.suite = a.suite ∧
        s.passed = a.passed := by
  unfold Admission.columns at h
  simp only [bind_eq_bind, bind_eq_some_iff] at h
  rcases h with ⟨_, hsuite, manifestDigest, hmanifest, _, hrunner, h⟩
  rcases Admission.postInit_eq_ok_iff.mp ha with ⟨hrunner', hsuite', hlength, _⟩
  rw [varchar_eq_self hmanifest hdigest] at h
  rw [← some.inj h]
  refine ⟨Admission.postInit_eq_ok_iff.mpr ⟨?_, ?_, hlength, rfl⟩, rfl, rfl, rfl⟩
  . exact varchar_ne_nil hrunner (by decide) hrunner'
  . exact varchar_ne_nil hsuite (by decide) hsuite'

theorem ComponentRow.Sound.record {row' : ComponentRow} (hsound : row.Sound rt) (ha : a.postInit = .ok a)
    (h : row.record rt row.manifest a = .ok row')
    : row'.Sound rt ∧ row.Follows row' := by
  unfold ComponentRow.record at h
  simp only [ite_error_eq_ok_iff, not_not] at h
  rcases h with ⟨hdigest, hsuite, h⟩
  cases hcolumns : a.columns with
  | none => simp [hcolumns] at h
  | some stored =>
    simp only [hcolumns, map_eq_ok_iff] at h
    rcases h with ⟨_, _, rfl⟩
    rcases Admission.stored_of_columns ha (hdigest ▸ digest_getLast? row.manifest) hcolumns with
      ⟨hstored, hdigest', hsuite', hpassed⟩
    refine ⟨⟨hsound.valid, hsound.signature, ?_, ?_⟩, rfl, rfl, fun h => by simp [h]⟩
    . intro a' ha'
      rcases mem_append.mp ha' with ha' | ha'
      . exact hsound.admissions a' ha'
      . rw [mem_singleton.mp ha']
        exact ⟨hstored, hdigest'.trans hdigest, hsuite'.trans hsuite⟩
    . intro hactive
      refine ⟨stored, getLast?_concat .., ?_⟩
      rw [hpassed]
      split at hactive
      . simp at hactive
      . split at hactive
        . assumption
        . simp at hactive

theorem ComponentRow.Sound.retire {row' : ComponentRow} (hsound : row.Sound rt)
    (h : row.retire rt = .ok row')
    : row'.Sound rt ∧ row.Follows row' := by
  unfold ComponentRow.retire at h
  rw [map_eq_ok_iff] at h
  rcases h with ⟨_, _, rfl⟩
  exact ⟨⟨hsound.valid, hsound.signature, hsound.admissions, fun h => by simp at h⟩, rfl, rfl,
    fun _ => rfl⟩

theorem Manifest.Stored.valid {m s : Manifest} (h : m.Stored s) (hvalid : m.Valid rt)
    : s.Valid rt := by
  have hmodule : validateModule s = validateModule m := by
    rw [h.rest]
    rfl
  rw [h.rest] at hmodule ⊢
  refine ⟨hvalid.name, hvalid.version, hvalid.latency, hvalid.budget, ?_,
    hmodule.trans hvalid.moduleDigest, hvalid.configSchema⟩
  intro hsidecar himage
  have hne : m.image ≠ [] := by
    intro hnil
    have himage' := h.image
    rw [hnil] at himage'
    exact himage (some.inj himage').symm
  have hpinned := hvalid.image hsidecar hne
  rw [varchar_eq_self h.image (getLast?_ne_space_of_isPinned hpinned)]
  exact hpinned

theorem Signature.postInit_eq_ok_iff {s s' : Signature}
    : s.postInit = .ok s' ↔ s.keyID ≠ [] ∧ s.value.length = 64 ∧ s = s' := by
  unfold Signature.postInit
  simp only [ite_error_eq_ok_iff, ok.injEq, not_not]

variable {signature : Option Signature}

theorem Signature.postInit_of_mapM {signature' : Option Signature}
    (h : signature.mapM Signature.postInit = .ok signature')
    : ∀ s ∈ signature', s.postInit = .ok s := by
  intro s hs
  cases signature with
  | none =>
    rw [← ok.inj h] at hs
    simp at hs
  | some s₀ =>
    simp only [Option.mapM_some, map_eq_pure_bind, bind_eq_ok_iff] at h
    rcases h with ⟨s₁, hs₁, h⟩
    rw [← ok.inj h, Option.mem_some] at hs
    have hsame := (Signature.postInit_eq_ok_iff.mp hs₁).2.2
    rw [← hs, ← hsame]
    rw [← hsame] at hs₁
    exact hs₁

theorem decode_stored {s : Signature} {keyID encoded : Str} (hs : s.postInit = .ok s)
    (hkey : varchar 128 s.keyID = some keyID) (hencoded : varchar 256 s.encoded = some encoded)
    : Signature.decode keyID encoded = .ok ⟨keyID, s.value⟩ := by
  rcases Signature.postInit_eq_ok_iff.mp hs with ⟨hid, hlength, _⟩
  have hlast : s.encoded.getLast? ≠ some space :=
    getLast?_ne_space_of_not_mem fun hmem => (Base64.mem_encode hmem).1 rfl
  have hne : s.encoded ≠ [] := by
    intro hnil
    have hdecode := Base64.decode_encode s.value
    unfold Signature.encoded at hnil
    rw [hnil] at hdecode
    have hvalue := some.inj hdecode
    simp [← hvalue] at hlength
  rw [varchar_eq_self hencoded hlast]
  unfold Signature.decode
  rw [bind_eq_ok_iff]
  refine ⟨s.value, ?_, Signature.postInit_eq_ok_iff.mpr
    ⟨varchar_ne_nil hkey (by decide) hid, hlength, rfl⟩⟩
  unfold Signing.decodeBase64
  rw [if_neg hne]
  unfold Signature.encoded
  rw [Base64.decode_encode]

theorem sound_componentRow {m : Manifest} {digest : Str} (hvalid : m.Valid rt)
    (hsignature : ∀ s ∈ signature, s.postInit = .ok s) (h : componentRow m digest signature = some row)
    : row.Sound rt ∧ row.status = .pending ∧
        ∃ s, m.columns = some s ∧ row.manifest.payload = s.payload ∧
          varchar 64 digest = some row.manifestDigest := by
  unfold componentRow at h
  simp only [bind_eq_bind, bind_eq_some_iff] at h
  rcases h with ⟨stored, hstored, manifestDigest, hdigest, keyID, hkey, _, hencoded, h⟩
  have hs := (Manifest.stored_of_columns hvalid hstored).valid hvalid
  have hrow := some.inj h
  subst hrow
  refine ⟨⟨?_, ?_, by simp, by simp⟩, rfl, stored, hstored, ?_, hdigest⟩
  . -- nothing is asked of the capabilities, in whatever order they are
    exact ⟨hs.name, hs.version, hs.latency, hs.budget, hs.image, hs.moduleDigest, hs.configSchema⟩
  . unfold ComponentRow.toSignature
    split
    . exact ⟨none, rfl⟩
    . next hboth =>
      cases signature with
      | none =>
        have hnil : keyID = [] := (some.inj hkey).symm
        exact absurd (.inl hnil) hboth
      | some s =>
        rw [decode_stored (hsignature s rfl) hkey hencoded]
        exact ⟨_, rfl⟩
  . unfold ComponentRow.manifest Manifest.payload
    rw [mergeSort_idem]

end

section

open ComponentTable (Op)

variable {rt : Runtime} {t : ComponentTable}

structure Registered (rt : Runtime) (m : Manifest) (row : ComponentRow) : Prop where
  sound : row.Sound rt
  stored : ∃ s, m.Stored s ∧ m.columns = some s ∧ row.manifest.payload = s.payload
  digest : row.manifestDigest = m.digest rt.sha256

theorem register_eq_ok {t' : ComponentTable} {trust : TrustStore} {m : Manifest}
    {signature : Option Signature} (h : t.register rt trust m signature = .ok t')
    : ∃ row, t' = t ++ [row] ∧ Registered rt m row := by
  unfold ComponentTable.register at h
  simp only [bind_eq_ok_iff, raised_eq_ok_iff] at h
  rcases h with ⟨m', hm, signature', hsignature, h⟩
  rcases Manifest.postInit_eq_ok_iff.mp hm with ⟨rfl, hvalid⟩
  simp only [ite_error_eq_ok_iff, bind_eq_ok_iff] at h
  rcases h with ⟨_, _, _, h⟩
  have hconstructed := Signature.postInit_of_mapM hsignature
  cases hrow : componentRow m' (m'.digest rt.sha256) signature' with
  | none => simp [hrow] at h
  | some row =>
    rw [hrow] at h
    rcases sound_componentRow hvalid hconstructed hrow with ⟨hsound, _, s, hcolumns, hpayload, hdigest⟩
    refine ⟨row, (ok.inj h).symm, hsound,
      ⟨s, Manifest.stored_of_columns hvalid hcolumns, hcolumns, hpayload⟩, ?_⟩
    exact varchar_eq_self hdigest (digest_getLast? m')

variable {change : ComponentRow → Except Failure ComponentRow}

theorem update_eq_ok {t' : ComponentTable} {name version : Str}
    (h : t.update name version change = .ok t')
    : ∃ i row row', t[i]? = some row ∧ change row = .ok row' ∧ t' = t.set i row' := by
  unfold ComponentTable.update at h
  simp only [bind_eq_ok_iff] at h
  rcases h with ⟨⟨i, row⟩, hrequire, row', hchange, h⟩
  unfold ComponentTable.require at hrequire
  split at hrequire
  . simp at hrequire
  . next found hfound =>
    rw [ok.inj hrequire] at hfound
    have hrow := (List.bind_getElem?_eq_some_iff.mp hfound).2
    exact ⟨i, row, row', hrow, hchange, (ok.inj h).symm⟩

inductive Changed (rt : Runtime) (t : ComponentTable) : Op → ComponentTable → Prop where
  | same {op : Op} (h : ∀ trust m signature, op = .register trust m signature →
      ∀ t', t.register rt trust m signature ≠ .ok t') : Changed rt t op t
  | registers {trust : TrustStore} {m : Manifest} {signature : Option Signature} {row : ComponentRow}
      (h : t.register rt trust m signature = .ok (t ++ [row])) (hrow : Registered rt m row)
      : Changed rt t (.register trust m signature) (t ++ [row])
  | moves {op : Op} {i : Nat} {row row' : ComponentRow} (hrow : t[i]? = some row)
      (h : row.Sound rt → row'.Sound rt ∧ row.Follows row')
      (hop : ∀ trust m signature, op ≠ .register trust m signature)
      : Changed rt t op (t.set i row')

theorem changed_of_update {op : Op} {name version : Str}
    (hop : ∀ trust m signature, op ≠ .register trust m signature)
    (h : ∀ row row', change row = .ok row' → row.Sound rt → row'.Sound rt ∧ row.Follows row')
    : Changed rt t op ((t.update name version change).toOption.getD t) := by
  cases hupdate : t.update name version change with
  | error err => exact .same fun trust m signature heq => absurd heq (hop trust m signature)
  | ok t' =>
    rcases update_eq_ok hupdate with ⟨i, row, row', hrow, hchange, rfl⟩
    exact .moves hrow (h row row' hchange) hop

variable {row : ComponentRow}

theorem record_sound {row' : ComponentRow} {a a' : Admission} (ha : a.postInit = .ok a') (h : (do
      let m ← raised (row.toManifest rt)
      row.record rt m a') = .ok row') (hsound : row.Sound rt)
    : row'.Sound rt ∧ row.Follows row' := by
  rw [bind_eq_ok_iff] at h
  rcases h with ⟨m, hm, h⟩
  have heq := (Manifest.postInit_eq_ok_iff.mp (raised_eq_ok_iff.mp hm)).1
  have heq' := (Admission.postInit_eq_ok_iff.mp ha).2.2.2
  subst heq heq'
  exact hsound.record ha h

theorem step_changed (rt : Runtime) (t : ComponentTable) (op : Op)
    : Changed rt t op (t.step rt op) := by
  cases op with
  | register trust m signature =>
    unfold ComponentTable.step
    dsimp only
    cases hregister : t.register rt trust m signature with
    | error err =>
      apply Changed.same
      rintro _ m' _ heq t' hok
      cases heq
      simp [hregister] at hok
    | ok t' =>
      rcases register_eq_ok hregister with ⟨row, rfl, hrow⟩
      exact .registers hregister hrow
  | admitComponent name version gate =>
    apply changed_of_update (by simp)
    intro row row' hchange
    simp only [bind_eq_ok_iff, raised_eq_ok_iff] at hchange
    rcases hchange with ⟨m, hm, a, _, a', ha, h⟩
    apply record_sound ha
    rw [bind_eq_ok_iff]
    exact ⟨m, raised_eq_ok_iff.mpr hm, h⟩
  | recordAdmission name version a =>
    unfold ComponentTable.step ComponentTable.recordAdmission
    dsimp only
    cases ha : a.postInit with
    | error err => exact .same (by simp)
    | ok a' => exact changed_of_update (by simp) fun row row' h => record_sound ha h
  | retire name version =>
    exact changed_of_update (by simp) fun row row' h hsound => hsound.retire h

theorem step_sound (h : ∀ row ∈ t, row.Sound rt) (op : Op) : ∀ row ∈ t.step rt op, row.Sound rt := by
  have hchanged := step_changed rt t op
  generalize t.step rt op = t' at hchanged
  cases hchanged with
  | same => exact h
  | registers _ hrow =>
    intro row hmem
    rcases mem_append.mp hmem with hmem | hmem
    . exact h row hmem
    . rw [mem_singleton.mp hmem]
      exact hrow.sound
  | @moves _ i row row' hrow hmove _ =>
    intro r hr
    rcases mem_or_eq_of_mem_set hr with hr | rfl
    . exact h r hr
    . exact (hmove (h row (mem_of_getElem? hrow))).1

theorem step_follows (h : ∀ row ∈ t, row.Sound rt) (op : Op) {i : Nat} (hrow : t[i]? = some row)
    : ∃ row', (t.step rt op)[i]? = some row' ∧ row.Follows row' := by
  have hchanged := step_changed rt t op
  generalize t.step rt op = t' at hchanged
  cases hchanged with
  | same => exact ⟨row, hrow, .refl row⟩
  | registers =>
    refine ⟨row, ?_, .refl row⟩
    rw [getElem?_append_left (List.getElem?_eq_some_iff.mp hrow).1]
    exact hrow
  | @moves _ j moved moved' hmoved hmove _ =>
    by_cases hij : j = i
    . subst hij
      rw [hrow, some.injEq] at hmoved
      subst hmoved
      refine ⟨moved', ?_, (hmove (h row (mem_of_getElem? hrow))).2⟩
      rw [getElem?_set_self (List.getElem?_eq_some_iff.mp hrow).1]
    . refine ⟨row, ?_, .refl row⟩
      rw [getElem?_set_ne hij]
      exact hrow

theorem foldl_step_sound (rt : Runtime) (ops : List Op)
    : ∀ row ∈ ops.foldl (ComponentTable.step rt) [], row.Sound rt := by
  apply foldlRecOn (motive := fun t : ComponentTable => ∀ row ∈ t, row.Sound rt)
  . simp
  . intro t h op _
    exact step_sound h op

theorem run_follows (h : ∀ row ∈ t, row.Sound rt) (ops : List Op) {i : Nat} (hrow : t[i]? = some row)
    : ∃ row', (ops.foldl (ComponentTable.step rt) t)[i]? = some row' ∧ row.Follows row' := by
  induction ops generalizing t row with
  | nil => exact ⟨row, hrow, .refl row⟩
  | cons op ops ih =>
    rcases step_follows h op hrow with ⟨row₁, hrow₁, hfollows⟩
    rcases ih (step_sound h op) hrow₁ with ⟨row₂, hrow₂, hfollows'⟩
    exact ⟨row₂, hrow₂, hfollows.trans hfollows'⟩

def ComponentRow.Faithful (rt : Runtime) (row : ComponentRow) : Prop :=
  row.manifest.digest rt.sha256 = row.manifestDigest

def Manifest.Collides (rt : Runtime) (m : Manifest) : Prop :=
  ∃ s, m.columns = some s ∧ s.payload ≠ m.payload ∧ rt.sha256 s.payload = rt.sha256 m.payload

def ComponentTable.Holds (rt : Runtime) (t : ComponentTable) : Op → Prop
  | .register trust m signature =>
    (t.register rt trust m signature).toBool = true → m.Held ∨ m.Collides rt
  | _ => True

theorem Registered.faithful_iff {m : Manifest} (h : Registered rt m row)
    : row.Faithful rt ↔ m.Held ∨ m.Collides rt := by
  rcases h.stored with ⟨s, hstored, hcolumns, hpayload⟩
  have hiff := hstored.payload_eq_iff
  unfold ComponentRow.Faithful Manifest.Collides
  rw [h.digest]
  unfold Manifest.digest
  rw [Pii.hexEncode_injective.eq_iff, hpayload, ← hiff]
  simp only [hcolumns, some.injEq, exists_eq_left']
  constructor
  . intro hsha
    by_cases heq : s.payload = m.payload
    . exact .inl heq
    . exact .inr ⟨heq, hsha⟩
  . rintro (heq | ⟨_, hsha⟩)
    . rw [heq]
    . exact hsha

theorem step_faithful_iff (h : ∀ row ∈ t, row.Sound rt) (hfaithful : ∀ row ∈ t, row.Faithful rt)
    (op : Op)
    : (∀ row ∈ t.step rt op, row.Faithful rt) ↔ t.Holds rt op := by
  have hchanged := step_changed rt t op
  generalize t.step rt op = t' at hchanged
  cases hchanged with
  | same hsame =>
    refine iff_of_true hfaithful ?_
    cases op with
    | register trust m signature =>
      intro hok
      cases hregister : t.register rt trust m signature with
      | error err => simp [hregister, Except.toBool] at hok
      | ok t' => exact absurd hregister (hsame trust m signature rfl t')
    | _ => trivial
  | @registers trust m signature row hregister hrow =>
    change _ ↔ ((t.register rt trust m signature).toBool = true → m.Held ∨ m.Collides rt)
    rw [hregister, ← hrow.faithful_iff]
    simp only [forall_mem_append, forall_mem_singleton]
    exact ⟨fun h _ => h.2, fun h => ⟨hfaithful, h rfl⟩⟩
  | @moves _ i row row' hrow hmove hop =>
    refine iff_of_true ?_ ?_
    . intro r hr
      rcases mem_or_eq_of_mem_set hr with hr | rfl
      . exact hfaithful r hr
      . have hfollows := (hmove (h row (mem_of_getElem? hrow))).2
        unfold ComponentRow.Faithful
        rw [hfollows.manifest, hfollows.digest]
        exact hfaithful row (mem_of_getElem? hrow)
    . cases op with
      | register trust m signature => exact absurd rfl (hop trust m signature)
      | _ => trivial

theorem registry_faithful_iff (rt : Runtime) (ops : List Op)
    : (∀ row ∈ ops.foldl (ComponentTable.step rt) [], (∃ c, row.toComponent rt = .ok c) ∧
        (row.status = .active → ∃ a, row.admissions.getLast? = some a ∧ a.passed = true) ∧
        (∀ a, row.admissions.getLast? = some a →
          a.suite = row.port ∧ a.manifestDigest = row.manifest.digest rt.sha256 ∧
            (a.passed = false → row.status ≠ .active))) ∧
      (∀ (later : List Op) (i : Nat) (row : ComponentRow),
        (ops.foldl (ComponentTable.step rt) [])[i]? = some row →
        ∃ row' : ComponentRow, ((ops ++ later).foldl (ComponentTable.step rt) [])[i]? = some row' ∧
          row'.manifest = row.manifest ∧ row'.manifestDigest = row.manifestDigest ∧
          (row.status = .retired → row'.status = .retired)) ∧
      (Throughout (ComponentTable.step rt) (fun t op => ∀ row ∈ t.step rt op, row.Faithful rt) [] ops
        ↔
      Throughout (ComponentTable.step rt) (fun t op => t.Holds rt op) [] ops) := by
  refine ⟨?_, ?_, ?_⟩
  . intro row hrow
    have hsound := foldl_step_sound rt ops row hrow
    refine ⟨hsound.toComponent, hsound.active, ?_⟩
    intro a hlast
    rcases hsound.admissions a (mem_of_getLast? hlast) with ⟨_, hdigest, hsuite⟩
    refine ⟨hsuite, hdigest, ?_⟩
    intro hfailed hactive
    rcases hsound.active hactive with ⟨a', hlast', hpassed⟩
    rw [hlast, some.injEq] at hlast'
    simp [← hlast', hfailed] at hpassed
  . intro later i row hrow
    rw [foldl_append]
    rcases run_follows (foldl_step_sound rt ops) later hrow with ⟨row', hrow', hfollows⟩
    exact ⟨row', hrow', hfollows.manifest, hfollows.digest, hfollows.retired⟩
  . apply @throughout_iff _ _ (ComponentTable.step rt)
      (fun t => (∀ row ∈ t, row.Sound rt) ∧ ∀ row ∈ t, row.Faithful rt)
      (fun t => ∀ row ∈ t, row.Faithful rt) (fun t op => t.Holds rt op)
    . rintro t op ⟨h, hfaithful⟩
      have hiff := step_faithful_iff h hfaithful op
      exact ⟨hiff, fun hholds => ⟨step_sound h op, hiff.mpr hholds⟩⟩
    . simp

namespace Sample

def runtime : Runtime where
  sha256 s := replicate 31 0 ++ [UInt8.ofNat s.length]
  ed25519 _ _ _ := true
  digits s := s.all fun b => 0x30 ≤ b && b ≤ 0x39
  loads _ := some true
  blank _ h := space_not_mem_of_all h (by decide)

def padded : Manifest where
  name := str "guard"
  version := str "1.0.0"
  port := .guardrail
  configSchema := str "\x7b\x7d"
  latencyBudgetMs := 5
  failureMode := .failClosed
  execution := .builtin
  capabilities := [str "net" ++ replicate 62 space]
  image := []
  moduleDigest := []

def registered : ComponentTable :=
  [Op.register .empty padded none].foldl (ComponentTable.step runtime) []

end Sample

open Sample

theorem registered_digest_lost
    : registered.map (·.manifestDigest) = [padded.digest runtime.sha256] ∧
      registered.map (fun row => row.capabilities.map List.length) = [[64]] ∧
      ∀ row ∈ registered, ¬ row.Faithful runtime := by
  refine ⟨by decide +kernel, by decide +kernel, ?_⟩
  change ∀ row ∈ registered, row.manifest.digest runtime.sha256 ≠ row.manifestDigest
  decide +kernel

end

end ModelGateway.Control
