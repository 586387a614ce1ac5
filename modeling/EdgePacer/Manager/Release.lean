import EdgePacer.Manager.Updater

/-!
# The release an update was signed in

The release tool signs every binary of a distribution directory: the version of the release, the
platform in the file's name and the digest of its content. Under unforgeable signatures and without
a collision, a binary that the updater accepts is one of these files (`accepted_release`).
-/

namespace EdgePacer.Manager

open Lib Text Updater

variable {Key : Type} (lib : Libraries Key)

/-! ## The release tool -/

/-- A file of the distribution directory. -/
structure ReleaseFile where
  name : String
  content : Bytes
  deriving DecidableEq, Repr

structure ManifestAsset where
  (name binary platform downloadUrl sha256 sigstoreBundleUrl : String)
  deriving DecidableEq, Repr

/-- The kind and the platform in the name of a release binary. -/
def parseReleaseArtifactName (name : String) : Option (String × String) :=
  if endsWith name ".sha256" || endsWith name ".sigstore.json" then none
  else
    let name := (stripSuffix ".exe" name).getD name
    match stripPrefix "edgepacer-manager-" name with
    | some platform => some ("edgepacer-manager", platform)
    | none => (stripPrefix "edgepacer-" name).map fun platform => ("edgepacer", platform)

/-- A run of the release tool. -/
structure Release where
  (version repository releaseTag : String)
  dist : List ReleaseFile

namespace Release

variable (r : Release)

/-- The asset of a file, if its name is that of a release binary. -/
def asset (file : ReleaseFile) : Option ManifestAsset :=
  (parseReleaseArtifactName file.name).map fun (binary, platform) =>
    let downloadUrl := "https://github.com/" ++ r.repository ++ "/releases/download/" ++
      r.releaseTag ++ "/" ++ file.name
    { name := file.name
      binary := binary
      platform := platform
      downloadUrl := downloadUrl
      sha256 := sha256Hex lib file.content
      sigstoreBundleUrl := downloadUrl ++ ".sigstore.json" }

/-- The assets of the manifest, before they are sorted. The tool fails if there are none. -/
def releaseAssets : List ManifestAsset := r.dist.filterMap (r.asset lib)

/-- What the tool signs for an asset. -/
def message (asset : ManifestAsset) : Bytes :=
  utf8 (updateSignaturePayload r.version asset.platform asset.sha256)

def signedMessages : List Bytes := (r.releaseAssets lib).map r.message

end Release

/-! ## From the signature to the release -/

/-- The line break and the label in front of a platform. -/
def platformLine : List Char := '\n' :: "platform:".toList

/-- The signed text determines its fields, unless a platform contains the beginning of a platform
line. -/
theorem updateSignaturePayload_inj {v v' p p' d d' : String}
    (hlen : d.toList.length = d'.toList.length) (hp : ¬ platformLine <:+: p.toList)
    (hp' : ¬ platformLine <:+: p'.toList)
    (h : updateSignaturePayload v p d = updateSignaturePayload v' p' d') :
    v = v' ∧ p = p' ∧ d = d' := by
  have hbreak : '\n' ∉ "platform:".toList := by decide +kernel
  have htext := congrArg String.toList h
  unfold updateSignaturePayload at htext
  simp only [String.toList_append] at htext
  obtain ⟨hv, hpp, hd⟩ := fields_inj hbreak hp hp' hlen htext
  exact ⟨String.toList_injective hv, String.toList_injective hpp, String.toList_injective hd⟩

/-- One of the releases has a binary of this kind, version, platform and content. -/
def ReleasedAs (releases : List Release) (kind : ReleaseKind) (version platform : String)
    (content : Bytes) : Prop :=
  ∃ r ∈ releases, r.version = version ∧ ∃ file ∈ r.dist, ∃ asset ∈ r.asset lib file,
    asset.binary = kind.binary ∧ asset.platform = platform ∧ file.content = content

instance (releases : List Release) (kind : ReleaseKind) (version platform : String)
    (content : Bytes) : Decidable (ReleasedAs lib releases kind version platform content) :=
  inferInstanceAs (Decidable (∃ r ∈ releases, _ ∧ ∃ file ∈ r.dist, ∃ asset ∈ r.asset lib file, _))

/-- Only what the releases have signed passes the check of a key. -/
def Unforgeable (releases : List Release) (key : Key) : Prop :=
  ∀ message signature, lib.verify key message signature = true →
    ∃ r ∈ releases, message ∈ r.signedMessages lib

/-- No file of a release has the digest of another content. -/
def CollisionFree (releases : List Release) (content : Bytes) : Prop :=
  ∀ r ∈ releases, ∀ file ∈ r.dist, lib.sha256 file.content = lib.sha256 content →
    file.content = content

instance (releases : List Release) (content : Bytes) :
    Decidable (CollisionFree lib releases content) :=
  inferInstanceAs (Decidable (∀ r ∈ releases, ∀ file ∈ r.dist, _ → _))

variable {lib}

variable {r : Release} {file : ReleaseFile} {asset : ManifestAsset}

theorem kind_of_asset (h : r.asset lib file = some asset) :
    ∃ kind : ReleaseKind, asset.binary = kind.binary := by
  obtain ⟨⟨binary, platform⟩, hname, rfl⟩ := Option.map_eq_some_iff.1 h
  unfold parseReleaseArtifactName at hname
  split_ifs at hname
  dsimp only at hname
  split at hname
  · obtain ⟨rfl, rfl⟩ := Prod.mk.inj (Option.some.inj hname)
    exact ⟨.manager, rfl⟩
  · obtain ⟨platform', -, hpair⟩ := Option.map_eq_some_iff.1 hname
    cases hpair
    exact ⟨.agent, rfl⟩

theorem sha256_of_asset (h : r.asset lib file = some asset) :
    asset.sha256 = sha256Hex lib file.content := by
  obtain ⟨⟨binary, platform⟩, -, rfl⟩ := Option.map_eq_some_iff.1 h
  rfl

theorem sha256Hex_inj {content content' : Bytes}
    (h : sha256Hex lib content = sha256Hex lib content') :
    lib.sha256 content = lib.sha256 content' :=
  Vector.toList_inj.1 (hexEncode_injective h)

namespace Updater

variable {u : Updater Key} {update : UpdateInfo} {content : Bytes}

/-- A content that passes has a valid signature over version, platform and digest. -/
theorem verify_of_verifyContent (h : u.verifyContent lib update content = .ok ()) :
    ∃ key ∈ u.updatePublicKey, ∃ signature,
      lib.verify key
        (utf8 (updateSignaturePayload update.version u.platform (sha256Hex lib content)))
        signature = true := by
  obtain ⟨expected, -, h⟩ := exists_of_bind_ok h
  split_ifs at h
  · cases h
  · unfold verifyUpdateSignature at h
    split at h
    · cases h
    · next key hkey =>
      obtain ⟨signature, -, h⟩ := exists_of_bind_ok h
      obtain ⟨signatureBytes, -, h⟩ := exists_of_bind_ok h
      dsimp only at h
      split_ifs at h with hverify
      exact ⟨key, hkey, signatureBytes, hverify⟩

/-- What a fetch accepts has passed the check for its answer. -/
theorem verifyContent_of_fetch {kind : ReleaseKind} {plane : String → CheckReply}
    {currentVersion : String} {d : Download}
    (h : u.fetch lib kind plane currentVersion d = .ok (some (update, content))) :
    u.verifyContent lib update content = .ok () := by
  obtain ⟨answer, -, h⟩ := exists_of_bind_ok h
  cases answer with
  | none => cases h
  | some update' =>
    obtain ⟨content', hdownload, h⟩ := exists_of_bind_ok h
    cases h
    obtain ⟨-, -, hdownload⟩ := exists_of_bind_ok hdownload
    split at hdownload
    · cases hdownload
    · cases hdownload
    · obtain ⟨-, -, hdownload⟩ := exists_of_bind_ok hdownload
      obtain ⟨received, -, hdownload⟩ := exists_of_bind_ok hdownload
      obtain ⟨⟨⟩, hverified, hdownload⟩ := exists_of_bind_ok hdownload
      obtain ⟨-, -, hdownload⟩ := exists_of_bind_ok hdownload
      cases hdownload
      exact hverified

end Updater

open Updater

/-- **Accepted binaries are released ones.** With unforgeable signatures and without a collision,
and as long as no platform contains the beginning of a platform line: a binary that the updater
accepts, on either channel, has been released for this version and platform, as an agent or as a
manager. -/
theorem accepted_release {u : Updater Key} {kind : ReleaseKind} {plane : String → CheckReply}
    {currentVersion : String} {d : Download} {update : UpdateInfo} {content : Bytes}
    {releases : List Release} (hsigned : ∀ key ∈ u.updatePublicKey, Unforgeable lib releases key)
    (hdigest : CollisionFree lib releases content)
    (hplatform : ¬ platformLine <:+: u.platform.toList)
    (hplatforms : ∀ r ∈ releases, ∀ asset ∈ r.releaseAssets lib,
      ¬ platformLine <:+: asset.platform.toList)
    (h : u.fetch lib kind plane currentVersion d = .ok (some (update, content))) :
    ∃ released, ReleasedAs lib releases released update.version u.platform content := by
  obtain ⟨key, hkey, signature, hverify⟩ := verify_of_verifyContent (verifyContent_of_fetch h)
  obtain ⟨r, hr, hmessage⟩ := hsigned key hkey _ _ hverify
  obtain ⟨asset, hasset, hpayload⟩ := List.mem_map.1 hmessage
  obtain ⟨file, hfile, hof⟩ := List.mem_filterMap.1 hasset
  have hsha := sha256_of_asset hof
  -- the signed text gives version, platform and digest, and the digest the content
  obtain ⟨hversion, hsame, hhex⟩ := updateSignaturePayload_inj
    (by rw [hsha, length_sha256Hex, length_sha256Hex])
    (hplatforms r hr asset hasset) hplatform
    (utf8_injective hpayload)
  have hcontent := hdigest r hr file hfile (sha256Hex_inj (hsha.symm.trans hhex))
  obtain ⟨released, hkind⟩ := kind_of_asset hof
  exact ⟨released, r, hr, hversion, file, hfile, asset, hof, hkind, hsame, hcontent⟩

/-! ## Runs -/

def downloadUrl : String := "https://github.com/repo/releases/download/v1.2.0/edgepacer"

/-- The bytes that are served, in two chunks, have this SHA-256. -/
def servedSha256 : String := "039058c6f2c0cb492c533b0a4d14ef77cc0f78abccced5287d84a1a2011cfb81"

def served : Download := { reply := .body [.ok [1, 2], .ok [3]] }

/-- An Ed25519 key, and its signatures for the two platforms below. -/
def publicKey : Bytes :=
  hexDecode "d75a980182b10ab7d54bfed3c964073a0ee172f3daa62325af021a68f707511a".toList

def amd64Signature : String :=
  "adc3e7cf6417f2731c4e9ed8425f851ccdddd7f8c10a8fd5b11107b95903eea9" ++
    "f4866fae1b55dd144f55603da4e7ab1ac3feca906972033fa7e0ee97e268c904"

def twoLineSignature : String :=
  "258cdc76aefb58b464a4d08bc4906ec713089928038ee669512e4bd285e9a2ff" ++
    "f3b35b7afe48bd2de67d3d5d2ef851927c3d7780a627a63a9798c3492c5e4602"

/-- What the libraries answer in these runs: the parts of the two URLs, the digest of the served
bytes, and that the key has made one signature, for a platform. -/
def recorded (platform signature : String) : Libraries Bytes where
  parseUrl url :=
    if url = downloadUrl then .ok ⟨"https", some "github.com"⟩
    else if url = "https://plane" then .ok ⟨"https", some "plane"⟩
    else .error "relative URL without a base"
  sha256 content :=
    if content = [1, 2, 3] then ⟨(hexDecode servedSha256.toList).toArray, by decide +kernel⟩
    else .replicate 32 0
  verify key message sig := decide (key = publicKey ∧
    message = utf8 (updateSignaturePayload "1.2.0" platform servedSha256) ∧
    sig = hexDecode signature.toList)

section

variable {platform signature : String}

theorem sha256Hex_recorded : sha256Hex (recorded platform signature) [1, 2, 3] = servedSha256 := by
  have hhex : hexEncode (hexDecode servedSha256.toList) = servedSha256 := by decide +kernel
  exact hhex

theorem unforgeable_recorded {key : Bytes}
    (h : utf8 (updateSignaturePayload "1.2.0" platform servedSha256) ∈
      r.signedMessages (recorded platform signature)) :
    Unforgeable (recorded platform signature) [r] key := by
  intro message sig hverify
  obtain ⟨-, rfl, -⟩ := of_decide_eq_true hverify
  exact ⟨r, List.mem_singleton_self r, h⟩

end

def updaterOn (platform : String) : Updater Bytes :=
  ⟨"https://plane", "token", platform, some publicKey⟩

/-- The answer that names the served bytes as a release of some version. -/
def answer (version signature : String) : UpdateInfo where
  version := version
  downloadUrl := downloadUrl
  sha256 := servedSha256
  signature := some signature

/-- The answer is accepted if its text is the signed one. -/
theorem announces_of_signed {version platform released signature : String}
    (hhex : isHexText ED25519_SIGNATURE_HEX_LENGTH signature = true)
    (h : updateSignaturePayload version platform servedSha256 =
      updateSignaturePayload "1.2.0" released servedSha256) :
    Announces (recorded released signature) (updaterOn platform) publicKey
      (answer version signature) [1, 2, 3] signature where
  newer := rfl
  url_nonempty := show downloadUrl.isEmpty = false by decide +kernel
  url := show validateDownloadUrl (recorded "" "") downloadUrl "https://plane" = .ok () by
    decide +kernel
  digest := sha256Hex_recorded.symm
  signed := rfl
  hex := hhex
  configured := rfl
  valid := by
    rw [sha256Hex_recorded]
    exact decide_eq_true ⟨rfl, congrArg utf8 h, rfl⟩

def releaseOf (name : String) : Release := ⟨"1.2.0", "repo", "v1.2.0", [⟨name, [1, 2, 3]⟩]⟩

theorem collisionFree_releaseOf (lib : Libraries Key) (name : String) :
    CollisionFree lib [releaseOf name] [1, 2, 3] := by
  simp [CollisionFree, releaseOf]

/-- The agent's binary for one platform is released. -/
def agentRelease : Release := releaseOf "edgepacer-linux-amd64"

def agentLibraries : Libraries Bytes := recorded "linux-amd64" amd64Signature

theorem agentRelease_announced :
    Announces agentLibraries (updaterOn "linux-amd64") publicKey (answer "1.2.0" amd64Signature)
      [1, 2, 3] amd64Signature :=
  announces_of_signed (by decide +kernel) rfl

theorem agentRelease_unforgeable (key : Bytes) : Unforgeable agentLibraries [agentRelease] key :=
  unforgeable_recorded (by decide +kernel)

theorem agentRelease_accepted :
    ∃ released, ReleasedAs agentLibraries [agentRelease] released "1.2.0" "linux-amd64"
      [1, 2, 3] :=
  accepted_release (fun key _ => agentRelease_unforgeable key) (collisionFree_releaseOf _ _)
    (by decide +kernel) (by decide +kernel)
    (agentRelease_announced.fetch (rfl : receive [.ok [1, 2], .ok [3]] = _) .agent "1.1.0")

/-- The platform in this file's name contains a platform line. -/
def twoLineRelease : Release := releaseOf "edgepacer-arm\nplatform:mips"

def twoLineLibraries : Libraries Bytes := recorded "arm\nplatform:mips" twoLineSignature

/-- The manager's channel accepts the signature of an agent's binary; and a release for a platform
whose name contains a platform line is accepted for another version and platform. -/
theorem kind_and_platform_not_bound :
    ((updaterOn "linux-amd64").fetch agentLibraries .manager
        (fun _ => .answer (answer "1.2.0" amd64Signature)) "1.1.0" served =
          .ok (some (answer "1.2.0" amd64Signature, [1, 2, 3])) ∧
      Unforgeable agentLibraries [agentRelease] publicKey ∧
      CollisionFree agentLibraries [agentRelease] [1, 2, 3] ∧
      ¬ ReleasedAs agentLibraries [agentRelease] .manager "1.2.0" "linux-amd64" [1, 2, 3]) ∧
    (updaterOn "mips").fetch twoLineLibraries .agent
        (fun _ => .answer (answer "1.2.0\nplatform:arm" twoLineSignature)) "1.1.0" served =
          .ok (some (answer "1.2.0\nplatform:arm" twoLineSignature, [1, 2, 3])) ∧
      Unforgeable twoLineLibraries [twoLineRelease] publicKey ∧
      CollisionFree twoLineLibraries [twoLineRelease] [1, 2, 3] ∧
      ¬ ReleasedAs twoLineLibraries [twoLineRelease] .agent "1.2.0\nplatform:arm" "mips"
        [1, 2, 3] := by
  refine ⟨⟨agentRelease_announced.fetch rfl .manager _, agentRelease_unforgeable _,
    collisionFree_releaseOf _ _, ?_⟩, ?_, unforgeable_recorded ?_, collisionFree_releaseOf _ _, ?_⟩
  · decide +kernel
  · -- the same text, cut at the other platform line
    refine Announces.fetch (announces_of_signed ?_ ?_) rfl .agent _
    · decide +kernel
    · decide +kernel
  · decide +kernel
  · decide +kernel

end EdgePacer.Manager
