import EdgePacer.Lib.Separated
import EdgePacer.Text

/-!
# Signed updates

The updater asks the control plane for a newer agent or manager, downloads what the answer names and
accepts it if its SHA-256 is the announced one and an Ed25519 signature over version, platform and
digest is valid. The release tool makes these signatures for the binaries of a release.

`accepted_release` goes from an accepted binary to the release it was signed in. The signed text
names neither the kind of the binary nor where its fields end: the signature of an agent's binary is
accepted for a manager, and a platform that contains a platform line may be taken for another
(`kind_and_platform_not_bound`).

Ed25519, SHA-256 and the parser of URLs are parameters (`Libraries`).
-/

namespace EdgePacer.Manager

open Lib Text

/-- What `reqwest::Url` tells of a URL. -/
structure Url where
  scheme : String
  host : Option String
  deriving DecidableEq, Repr

/-- The libraries the updater is built on, with their public keys. -/
structure Libraries (Key : Type) where
  parseUrl : String → Except String Url
  sha256 : Bytes → Vector UInt8 32
  /-- `Verifier::verify`: the message, then the signature -/
  verify : Key → Bytes → Bytes → Bool

/-! ## The signed text -/

def UPDATE_SIGNATURE_CONTEXT : String := "edgepacer-update-v1"

def updateSignaturePayload (version platform sha256 : String) : String :=
  UPDATE_SIGNATURE_CONTEXT ++ "\nversion:" ++ version ++ "\nplatform:" ++ platform ++ "\nsha256:" ++
    sha256 ++ "\n"

/-- `hex::encode` of the SHA-256. -/
def sha256Hex {Key : Type} (lib : Libraries Key) (content : Bytes) : String :=
  hexEncode (lib.sha256 content).toList

/-! ## The updater -/

theorem exists_of_bind_ok {ε α β : Type} {x : Except ε α} {f : α → Except ε β} {b : β}
    (h : x >>= f = .ok b) : ∃ a, x = .ok a ∧ f a = .ok b := by
  cases x with
  | error e => cases h
  | ok a => exact ⟨a, rfl, h⟩

theorem ok_bind {ε α β : Type} (a : α) (f : α → Except ε β) : (.ok a >>= f) = f a := rfl

/-- The errors of an update, with the texts of the source. -/
inductive UpdateError where
  /-- An error of the HTTP client, the JSON parser, the URL parser or the file system. -/
  | other (error : String)
  /-- `version check failed: {body}` -/
  | versionCheckFailed (body : String)
  /-- `update response missing download_url or sha256` -/
  | missingFields
  /-- `update response has invalid sha256 value: {raw:?}` -/
  | invalidSha256 (raw : String)
  /-- `update signing key is not configured; set EDGEPACER_UPDATE_PUBLIC_KEY` -/
  | keyNotConfigured
  /-- `update response missing valid Ed25519 signature` -/
  | invalidSignature
  /-- `download URL must use HTTPS for non-localhost: {url}` -/
  | notHttps (url : String)
  /-- `download URL host not trusted: {host} (url: {url})` -/
  | hostNotTrusted (host url : String)
  /-- `download failed: {status}` -/
  | downloadFailed (status : Nat)
  /-- `SHA256 mismatch: expected {expected}, got {computed}` -/
  | sha256Mismatch (expected computed : String)
  /-- `{label} must be {digits} hex characters` -/
  | notHex (label : String) (digits : Nat)
  /-- `update signature verification failed` -/
  | verificationFailed
  deriving DecidableEq, Repr

/-- The control plane's answer. -/
structure UpdateInfo where
  (version downloadUrl sha256 : String)
  signature : Option String := none
  upToDate : Bool := false
  deriving DecidableEq, Repr

def TRUSTED_HOSTS : List String :=
  ["releases.logpacer.com", "github.com", "objects.githubusercontent.com"]

def SHA256_HEX_LENGTH : Nat := 64
def ED25519_SIGNATURE_HEX_LENGTH : Nat := 128

def isLoopbackDownloadHost (host : String) : Bool :=
  host = "localhost" || host = "127.0.0.1" || host = "::1" || host = "[::1]"

/-- A text of `digits` hexadecimal digits. The source counts bytes, which are as many as the
characters once all of them are digits. -/
def isHexText (digits : Nat) (s : String) : Bool :=
  s.toList.length = digits && s.toList.all isHexDigit

def expectedSha256 (raw : String) : Except UpdateError String :=
  if isHexText SHA256_HEX_LENGTH (firstWord raw) then .ok (firstWord raw)
  else .error (.invalidSha256 raw)

def expectedSignature (raw : Option String) : Except UpdateError String :=
  if isHexText ED25519_SIGNATURE_HEX_LENGTH (trim (raw.getD "")) then
    .ok (trim (raw.getD ""))
  else .error .invalidSignature

def decodeHexFixed (bytes : Nat) (raw label : String) : Except UpdateError Bytes :=
  if isHexText (2 * bytes) raw then .ok (hexDecode raw.toList)
  else .error (.notHex label (2 * bytes))

section

variable {Key : Type} (lib : Libraries Key)

/-- A host must be local, the control plane's or a trusted one, and HTTPS unless it is local. -/
def validateDownloadUrl (url railsUrl : String) : Except UpdateError Unit := do
  let parsed ← (lib.parseUrl url).mapError .other
  let host := parsed.host.getD ""
  let https : Except UpdateError Unit :=
    if parsed.scheme = "https" then .ok () else .error (.notHttps url)
  if isLoopbackDownloadHost host then .ok ()
  else if (lib.parseUrl railsUrl).toOption.any fun rails => rails.host = some host then https
  else if TRUSTED_HOSTS.any fun trusted => host = trusted || endsWith host ("." ++ trusted) then
    https
  else .error (.hostNotTrusted host url)

/-- The settings of the update check. -/
structure Updater (Key : Type) where
  (railsUrl token platform : String)
  updatePublicKey : Option Key

/-- What comes back from a version check. A success whose body is not the expected JSON is
`unreadable`. -/
inductive CheckReply where
  | transport (error : String)
  | rejected (body : String)
  | unreadable (error : String)
  | answer (info : UpdateInfo)

/-- The two channels: releases of the agent and of the manager. -/
inductive ReleaseKind where
  | agent
  | manager
  deriving DecidableEq, Repr

def ReleaseKind.path : ReleaseKind → String
  | .agent => "/api/v1/edgepacer/agent/latest"
  | .manager => "/api/v1/edgepacer/manager/latest"

/-- The name the release tool gives to the kind. -/
def ReleaseKind.binary : ReleaseKind → String
  | .agent => "edgepacer"
  | .manager => "edgepacer-manager"

namespace Updater

variable (u : Updater Key)

variable (plane : String → CheckReply)

/-- Ask the control plane, which is given by what it answers to a URL. -/
def check (path currentVersion : String) : Except UpdateError (Option UpdateInfo) :=
  match plane (u.railsUrl ++ path ++ "?platform=" ++ u.platform ++ "&current_version=" ++
      currentVersion) with
  | .transport error => .error (.other error)
  | .rejected body => .error (.versionCheckFailed body)
  | .unreadable error => .error (.other error)
  | .answer info => do
      if info.upToDate then return none
      if info.downloadUrl.isEmpty || info.sha256.isEmpty then throw .missingFields
      discard (expectedSha256 info.sha256)
      if u.updatePublicKey.isNone then throw .keyNotConfigured
      discard (expectedSignature info.signature)
      return some info

def checkForUpdate (currentVersion : String) : Except UpdateError (Option UpdateInfo) :=
  u.check plane ReleaseKind.agent.path currentVersion

def checkForSelfUpdate (currentVersion : String) : Except UpdateError (Option UpdateInfo) :=
  u.check plane ReleaseKind.manager.path currentVersion

def verifyUpdateSignature (update : UpdateInfo) (sha256 : String) : Except UpdateError Unit :=
  match u.updatePublicKey with
  | none => .error .keyNotConfigured
  | some publicKey => do
      let signature ← expectedSignature update.signature
      let signatureBytes ← decodeHexFixed 64 signature "update signature"
      let payload := updateSignaturePayload update.version u.platform sha256
      if lib.verify publicKey (utf8 payload) signatureBytes then .ok ()
      else .error .verificationFailed

/-- The digest and the signature of what was downloaded. -/
def verifyContent (update : UpdateInfo) (content : Bytes) : Except UpdateError Unit := do
  let computed := sha256Hex lib content
  let expected ← expectedSha256 update.sha256
  if computed ≠ expected then throw (.sha256Mismatch expected computed)
  u.verifyUpdateSignature lib update computed

/-- What comes back from a download: an error, a status, or a body in chunks, any of which may be an
error of the stream or fail to be written. -/
inductive DownloadReply where
  | transport (error : String)
  | rejected (status : Nat)
  | body (chunks : List (Except String Bytes))

/-- What a download meets: the reply, and what the file system makes of the file. -/
structure Download where
  reply : DownloadReply
  created : Except String Unit := .ok ()
  permissionsSet : Except String Unit := .ok ()

/-- The bytes of a body, up to its first error. -/
def receive : List (Except String Bytes) → Except String Bytes
  | [] => .ok []
  | .error e :: _ => .error e
  | .ok chunk :: rest =>
      match receive rest with
      | .error e => .error e
      | .ok content => .ok (chunk ++ content)

/-- The content of the verified file. -/
def downloadAndVerify (update : UpdateInfo) (d : Download) : Except UpdateError Bytes := do
  validateDownloadUrl lib update.downloadUrl u.railsUrl
  match d.reply with
  | .transport error => throw (.other error)
  | .rejected status => throw (.downloadFailed status)
  | .body chunks =>
      d.created.mapError .other
      let content ← (receive chunks).mapError .other
      u.verifyContent lib update content
      d.permissionsSet.mapError .other
      return content

/-- The check of a channel. -/
def checkFor (kind : ReleaseKind) (plane : String → CheckReply) (currentVersion : String) :
    Except UpdateError (Option UpdateInfo) :=
  match kind with
  | .agent => u.checkForUpdate plane currentVersion
  | .manager => u.checkForSelfUpdate plane currentVersion

/-- A check and the download of what it names: the answer, and the content accepted for it. -/
def fetch (kind : ReleaseKind) (plane : String → CheckReply) (currentVersion : String)
    (d : Download) : Except UpdateError (Option (UpdateInfo × Bytes)) := do
  match ← u.checkFor kind plane currentVersion with
  | none => return none
  | some update =>
      let content ← u.downloadAndVerify lib update d
      return some (update, content)

/-! ## What is accepted -/

variable {lib u}

theorem solid_of_isHexText {digits : Nat} {s : String} (h : isHexText digits s = true) :
    ∀ c ∈ s.toList, isWhitespace c = false := by
  intro c hc
  rw [isHexText, Bool.and_eq_true] at h
  exact solid_of_hexDigit (List.all_eq_true.1 h.2 c hc)

theorem length_sha256Hex (content : Bytes) : (sha256Hex lib content).toList.length = 64 := by
  rw [sha256Hex, length_hexEncode, Vector.length_toList]

theorem expectedSha256_sha256Hex (content : Bytes) :
    expectedSha256 (sha256Hex lib content) = .ok (sha256Hex lib content) := by
  have hhex : isHexText SHA256_HEX_LENGTH (sha256Hex lib content) = true := by
    rw [isHexText, length_sha256Hex, sha256Hex, all_hexEncode]
    rfl
  rw [expectedSha256, firstWord_of_solid (solid_of_isHexText hhex), if_pos hhex]

theorem expectedSignature_of_isHexText {signature : String}
    (h : isHexText ED25519_SIGNATURE_HEX_LENGTH signature = true) :
    expectedSignature (some signature) = .ok signature := by
  rw [expectedSignature, Option.getD_some, trim_of_solid (solid_of_isHexText h), if_pos h]

/-- An answer that announces a content: its URL is allowed, its digest is the content's and its
signature is valid for the updater's platform. -/
structure Announces (lib : Libraries Key) (u : Updater Key) (key : Key) (update : UpdateInfo)
    (content : Bytes) (signature : String) : Prop where
  newer : update.upToDate = false
  url_nonempty : update.downloadUrl.isEmpty = false
  url : validateDownloadUrl lib update.downloadUrl u.railsUrl = .ok ()
  digest : update.sha256 = sha256Hex lib content
  signed : update.signature = some signature
  hex : isHexText ED25519_SIGNATURE_HEX_LENGTH signature = true
  configured : u.updatePublicKey = some key
  valid : lib.verify key
    (utf8 (updateSignaturePayload update.version u.platform (sha256Hex lib content)))
    (hexDecode signature.toList) = true

namespace Announces

variable {key : Key} {update : UpdateInfo} {content : Bytes} {signature : String}

variable (h : Announces lib u key update content signature)

include h

theorem check (path currentVersion : String) :
    u.check (fun _ => .answer update) path currentVersion = .ok (some update) := by
  have hnonempty : (sha256Hex lib content).isEmpty = false := by
    rw [Bool.eq_false_iff]
    intro hempty
    have hlen : (sha256Hex lib content).toList.length = 64 := length_sha256Hex content
    rw [String.isEmpty_iff.1 hempty] at hlen
    cases hlen
  rw [Updater.check]
  simp only [h.newer, h.url_nonempty, h.digest, hnonempty, h.signed, h.configured,
    expectedSha256_sha256Hex, expectedSignature_of_isHexText h.hex]
  rfl

theorem verifyContent : u.verifyContent lib update content = .ok () := by
  have hdecode : decodeHexFixed 64 signature "update signature" =
      .ok (hexDecode signature.toList) := if_pos h.hex
  simp only [Updater.verifyContent, verifyUpdateSignature, h.digest, expectedSha256_sha256Hex,
    h.configured, h.signed, expectedSignature_of_isHexText h.hex, ok_bind, hdecode, h.valid, ne_eq,
    not_true_eq_false, if_false, if_true]

/-- An announced content is accepted on either channel. -/
theorem fetch {chunks : List (Except String Bytes)} (hbody : receive chunks = .ok content)
    (kind : ReleaseKind) (currentVersion : String) :
    u.fetch lib kind (fun _ => .answer update) currentVersion { reply := .body chunks } =
      .ok (some (update, content)) := by
  have hcheck : u.checkFor kind (fun _ => .answer update) currentVersion = .ok (some update) := by
    cases kind with
    | agent => exact h.check ReleaseKind.agent.path currentVersion
    | manager => exact h.check ReleaseKind.manager.path currentVersion
  have hdownload : u.downloadAndVerify lib update { reply := .body chunks } = .ok content := by
    simp only [downloadAndVerify, h.url, hbody, ok_bind, Except.mapError, h.verifyContent]
    rfl
  simp only [Updater.fetch, hcheck, hdownload, ok_bind]
  rfl

end Announces

end Updater

end

end EdgePacer.Manager
