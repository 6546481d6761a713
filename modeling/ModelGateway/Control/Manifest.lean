import ModelGateway.Control.Component
import ModelGateway.Control.FineTune
import ModelGateway.Lib.Split
import ModelGateway.Lib.TextColumn

namespace ModelGateway.Control

open List Except

open FineTune (slugByte withoutNewline)

open TextColumn (space)

structure Runtime where
  sha256 : Str → Str
  ed25519 : Str → Str → Str → Bool
  digits : Str → Bool
  loads : Str → Option Bool
  blank : ∀ s, digits s = true → space ∉ s

section

def isComponentName (s : Str) : Bool :=
  let name := withoutNewline s
  3 ≤ name.length && name.length ≤ 64 && name.all (fun b => slugByte b || b == 0x2d)
    && name.head?.any slugByte && name.getLast?.any slugByte

def isLetter (b : UInt8) : Bool :=
  (0x61 ≤ b && b ≤ 0x7a) || (0x41 ≤ b && b ≤ 0x5a) || b == 0x2d

def isAlphanumeric (b : UInt8) : Bool :=
  isLetter b || (0x30 ≤ b && b ≤ 0x39)

variable (digits : Str → Bool)

def isNumber : Str → Bool
  | [] => false
  | b :: rest => (b == 0x30 && rest.isEmpty) || (0x31 ≤ b && b ≤ 0x39 && digits rest)

def isPrerelease (s : Str) : Bool :=
  isNumber digits s ||
    (digits (s.takeWhile fun b => !isLetter b) && (s.any isLetter)
      && (s.dropWhile fun b => !isLetter b).all isAlphanumeric)

def isBuild (s : Str) : Bool :=
  !s.isEmpty && s.all isAlphanumeric

def isSemver (s : Str) : Bool :=
  let version := withoutNewline s
  let released := version.takeWhile (· != 0x2b)
  let build := version.dropWhile (· != 0x2b)
  let core := released.takeWhile (· != 0x2d)
  let prerelease := released.dropWhile (· != 0x2d)
  (core.splitOn 0x2e).length == 3 && (core.splitOn 0x2e).all (isNumber digits)
    && (prerelease.isEmpty || (prerelease.tail.splitOn 0x2e).all (isPrerelease digits))
    && (build.isEmpty || (build.tail.splitOn 0x2e).all isBuild)

def isHex (b : UInt8) : Bool :=
  (0x30 ≤ b && b ≤ 0x39) || (0x61 ≤ b && b ≤ 0x66)

def isDigest (s : Str) : Bool :=
  let digest := withoutNewline s
  digest.take 7 == str "sha256:" && (digest.drop 7).length == 64 && (digest.drop 7).all isHex

def isPinned (image : Str) : Bool :=
  isDigest image ||
    (image.contains 0x40 && !(image.takeWhile (· != 0x40)).isEmpty
      && isDigest (image.dropWhile (· != 0x40)).tail)

end

def Port.onRequestPath : Port → Bool
  | .provider => true
  | .guardrail => true
  | .store => true
  | .telemetry => true
  | _ => false

def validateConfigSchema (rt : Runtime) (name schema : Str) : Except Error Unit :=
  match rt.loads schema with
  | none =>
    .error (.invalidRequest (str "component " ++ repr name
      ++ str " has a config schema that is not JSON"))
  | some false =>
    .error (.invalidRequest (str "component " ++ repr name
      ++ str " has a config schema that is not an object"))
  | some true => .ok ()

def validateModule (m : Manifest) : Except Error Unit :=
  if m.execution = .inProcess then
    if m.moduleDigest = [] then
      .error (.invalidRequest (str "component " ++ repr m.name
        ++ str " runs in process and must name its module digest"))
    else if isDigest m.moduleDigest then
      .ok ()
    else
      .error (.invalidRequest (str "component " ++ repr m.name ++ str " has module "
        ++ repr m.moduleDigest ++ str ", which is not a sha256 digest of the module bytes"))
  else if m.moduleDigest ≠ [] then
    .error (.invalidRequest (str "component " ++ repr m.name
      ++ str " names a module but does not run in process"))
  else
    .ok ()

def Manifest.postInit (rt : Runtime) (m : Manifest) : Except Error Manifest :=
  if !isComponentName m.name then
    .error (.invalidRequest (str "component name " ++ repr m.name
      ++ str " must be a lowercase slug of 3 to 64 characters"))
  else if !isSemver rt.digits m.version then
    .error (.invalidRequest (str "component " ++ repr m.name ++ str " has version "
      ++ repr m.version ++ str ", which is not semver"))
  else if m.latencyBudgetMs < 0 then
    .error (.invalidRequest (str "component " ++ repr m.name ++ str " has a negative latency budget"))
  else if m.port.onRequestPath ∧ m.latencyBudgetMs = 0 then
    .error (.invalidRequest (str "component " ++ repr m.name ++ str " fills " ++ m.port.value
      ++ str " and must declare a latency budget"))
  else if m.execution = .sidecar ∧ m.image ≠ [] ∧ !isPinned m.image then
    .error (.invalidRequest (str "component " ++ repr m.name ++ str " pins " ++ repr m.image
      ++ str " by tag; use an image digest"))
  else do
    validateModule m
    validateConfigSchema rt m.name m.configSchema
    return m

structure Manifest.Valid (rt : Runtime) (m : Manifest) : Prop where
  name : isComponentName m.name = true
  version : isSemver rt.digits m.version = true
  latency : 0 ≤ m.latencyBudgetMs
  budget : ¬ (m.port.onRequestPath = true ∧ m.latencyBudgetMs = 0)
  image : m.execution = .sidecar → m.image ≠ [] → isPinned m.image = true
  moduleDigest : validateModule m = .ok ()
  configSchema : rt.loads m.configSchema = some true

theorem Manifest.postInit_eq_ok_iff {rt : Runtime} {m m' : Manifest}
    : m.postInit rt = .ok m' ↔ m' = m ∧ m.Valid rt := by
  have hschema : validateConfigSchema rt m.name m.configSchema = .ok () ↔
      rt.loads m.configSchema = some true := by
    unfold validateConfigSchema
    cases rt.loads m.configSchema with
    | none => simp
    | some object => cases object <;> simp
  unfold Manifest.postInit
  simp only [ite_error_eq_ok_iff, bind_eq_ok_iff]
  constructor
  . rintro ⟨hname, hversion, hlatency, hbudget, himage, _, hmodule, _, hconfig, h⟩
    refine ⟨(ok.inj h).symm, by simpa using hname, by simpa using hversion, by omega, hbudget,
      ?_, hmodule, hschema.mp hconfig⟩
    intro hsidecar himage'
    by_contra hpinned
    exact himage ⟨hsidecar, himage', by simpa using hpinned⟩
  . rintro ⟨rfl, h⟩
    refine ⟨by simpa using h.name, by simpa using h.version, by have := h.latency; omega, h.budget, ?_,
      (), h.moduleDigest, (), hschema.mpr h.configSchema, rfl⟩
    rintro ⟨hsidecar, himage, hpinned⟩
    simp [h.image hsidecar himage] at hpinned

section

variable {s : Str}

theorem getLast?_ne_space_of_withoutNewline (h : (withoutNewline s).getLast? ≠ some space)
    : s.getLast? ≠ some space := by
  unfold withoutNewline at h
  split at h
  . next hnewline =>
    rw [hnewline]
    decide
  . exact h

theorem getLast?_ne_space_of_not_mem (h : space ∉ s) : s.getLast? ≠ some space :=
  fun hlast => h (mem_of_getLast? hlast)

theorem getLast?_ne_space_of_isComponentName (h : isComponentName s = true)
    : s.getLast? ≠ some space := by
  apply getLast?_ne_space_of_withoutNewline
  unfold isComponentName at h
  simp only [Bool.and_eq_true] at h
  intro hlast
  have hslug := h.2
  rw [hlast] at hslug
  revert hslug
  decide

theorem space_not_mem_of_all {p : UInt8 → Bool} (h : s.all p = true) (hp : p space = false)
    : space ∉ s := by
  intro hmem
  simp [all_eq_true.mp h space hmem] at hp

variable {rt : Runtime}

theorem space_not_mem_of_isNumber (h : isNumber rt.digits s = true) : space ∉ s := by
  unfold isNumber at h
  cases s with
  | nil => simp
  | cons b rest =>
    simp only [Bool.or_eq_true, Bool.and_eq_true, beq_iff_eq, List.isEmpty_iff] at h
    rw [mem_cons, not_or]
    rcases h with ⟨rfl, rfl⟩ | ⟨⟨hlow, _⟩, hdigits⟩
    . exact ⟨by decide, by simp⟩
    . refine ⟨?_, rt.blank rest hdigits⟩
      rintro rfl
      revert hlow
      decide

theorem space_not_mem_of_isPrerelease (h : isPrerelease rt.digits s = true) : space ∉ s := by
  unfold isPrerelease at h
  simp only [Bool.or_eq_true, Bool.and_eq_true] at h
  rcases h with h | ⟨⟨hlead, _⟩, hrest⟩
  . exact space_not_mem_of_isNumber h
  . rw [← takeWhile_append_dropWhile (l := s) (p := fun b => !isLetter b), mem_append, not_or]
    exact ⟨rt.blank _ hlead, space_not_mem_of_all hrest (by decide)⟩

theorem space_not_mem_of_splitOn {p : Str → Bool} {sep : UInt8} (hsep : space ≠ sep)
    (hp : ∀ piece, p piece = true → space ∉ piece) (h : (s.splitOn sep).all p = true)
    : space ∉ s := by
  intro hmem
  rcases List.exists_mem_splitOn_of_mem hmem hsep with ⟨piece, hpiece, hspace⟩
  exact hp piece (all_eq_true.mp h piece hpiece) hspace

theorem space_not_mem_of_tail {p : Str → Bool} {sep : UInt8} (hsep : space ≠ sep)
    (hp : ∀ piece, p piece = true → space ∉ piece)
    (h : ((s.dropWhile (· != sep)).isEmpty || ((s.dropWhile (· != sep)).tail.splitOn 0x2e).all p) = true)
    : space ∉ s.dropWhile (· != sep) := by
  have hhead : ∀ b ∈ (s.dropWhile (· != sep)).head?, b = sep := by
    intro b hb
    have hnot := head?_dropWhile_not (· != sep) s
    rw [Option.mem_def.mp hb] at hnot
    simpa using hnot
  cases hdrop : s.dropWhile (· != sep) with
  | nil => simp
  | cons b rest =>
    rw [hdrop] at h hhead
    rw [mem_cons, not_or]
    have hb : b = sep := hhead b rfl
    refine ⟨hb ▸ hsep, ?_⟩
    apply space_not_mem_of_splitOn (show space ≠ 0x2e by decide) hp
    simpa using h

theorem getLast?_ne_space_of_isSemver (h : isSemver rt.digits s = true)
    : s.getLast? ≠ some space := by
  apply getLast?_ne_space_of_withoutNewline
  apply getLast?_ne_space_of_not_mem
  unfold isSemver at h
  generalize withoutNewline s = version at h ⊢
  simp only [Bool.and_eq_true] at h
  rcases h with ⟨⟨⟨_, hcore⟩, hprerelease⟩, hbuild⟩
  have hcore' := space_not_mem_of_splitOn (by decide) (fun _ => space_not_mem_of_isNumber) hcore
  have hprerelease' := space_not_mem_of_tail (by decide) (fun _ => space_not_mem_of_isPrerelease)
    hprerelease
  have hbuild' := space_not_mem_of_tail (p := isBuild) (by decide) (fun piece hpiece => by
    unfold isBuild at hpiece
    rw [Bool.and_eq_true] at hpiece
    exact space_not_mem_of_all hpiece.2 (by decide)) hbuild
  rw [← takeWhile_append_dropWhile (l := version) (p := (· != 0x2b)), mem_append, not_or]
  refine ⟨?_, hbuild'⟩
  rw [← takeWhile_append_dropWhile (l := version.takeWhile (· != 0x2b)) (p := (· != 0x2d)),
    mem_append, not_or]
  exact ⟨hcore', hprerelease'⟩

theorem getLast?_ne_space_of_isDigest (h : isDigest s = true)
    : s.getLast? ≠ some space ∧ s ≠ [] := by
  refine ⟨?_, ?_⟩
  . apply getLast?_ne_space_of_withoutNewline
    apply getLast?_ne_space_of_not_mem
    unfold isDigest at h
    simp only [Bool.and_eq_true, beq_iff_eq] at h
    rw [← take_append_drop 7 (withoutNewline s), mem_append, not_or, h.1.1]
    exact ⟨by decide, space_not_mem_of_all h.2 (by decide)⟩
  . rintro rfl
    revert h
    decide

theorem getLast?_ne_space_of_isPinned {image : Str} (h : isPinned image = true)
    : image.getLast? ≠ some space := by
  unfold isPinned at h
  simp only [Bool.or_eq_true, Bool.and_eq_true] at h
  rcases h with h | ⟨_, h⟩
  . exact (getLast?_ne_space_of_isDigest h).1
  . rcases getLast?_ne_space_of_isDigest h with ⟨hlast, hne⟩
    rw [← takeWhile_append_dropWhile (l := image) (p := (· != 0x40))]
    cases hdrop : image.dropWhile (· != 0x40) with
    | nil => simp [hdrop] at hne
    | cons b digest =>
      rw [hdrop, tail_cons] at hlast hne
      rw [getLast?_append, getLast?_cons_of_ne_nil hne]
      intro h
      rcases Option.isSome_iff_exists.mp (getLast?_isSome.mpr hne) with ⟨last, hsome⟩
      rw [hsome] at h hlast
      exact hlast h

theorem getLast?_ne_space_of_validateModule {m : Manifest} (h : validateModule m = .ok ())
    : m.moduleDigest.getLast? ≠ some space := by
  unfold validateModule at h
  split at h
  . split at h
    . simp at h
    . split at h
      . next hdigest => exact (getLast?_ne_space_of_isDigest hdigest).1
      . simp at h
  . split at h
    . simp at h
    . next hmodule =>
      rw [not_not.mp hmodule]
      simp

end

end ModelGateway.Control
