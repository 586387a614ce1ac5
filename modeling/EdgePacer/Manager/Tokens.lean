import EdgePacer.Manager.Supervision
import EdgePacer.Text

/-!
# The tokens of the manager's requests

The manager authenticates with a server token. `ManagerAuth` obtains it for the account token, keeps
it in a file and obtains a new one when the control plane rejects it while the manager runs
(re-onboarding). The loop hands the token of `ManagerAuth` to every agent it starts; the updater got
a copy when it was made.

`Loop` puts the tokens beside the phases of the supervisor and records what every request of the
loop carries. The updater's copy is never replaced: `sent_fresh` needs that a re-onboarding brings
the token the updater has.
-/

namespace EdgePacer.Manager

open Lib List Text

/-- `HeaderValue::from_str` and the fingerprint of an account token (hex digits of its SHA-256). -/
structure Externals where
  validHeader : String → Bool
  fingerprint : String → String

variable (lib : Externals)

/-- The token in the header `Authorization: Bearer …`, if the request gets this header. -/
def bearerHeader (token : String) : Option String :=
  if (trim token).isEmpty then none
  else if lib.validHeader ("Bearer " ++ trim token) then some (trim token)
  else none

/-! ## Authentication -/

inductive ErrorClass where
  | auth
  | retryable
  | nonRetryable
  deriving DecidableEq, Repr

def classifyHttpStatus (status : Nat) : ErrorClass :=
  if status = 401 ∨ status = 403 then .auth
  else if status = 429 then .retryable
  else if 400 ≤ status ∧ status ≤ 499 then .nonRetryable
  else if 500 ≤ status ∧ status ≤ 599 then .retryable
  else .nonRetryable

/-- What a ping says of the token. -/
inductive PingOutcome where
  | valid
  | authRejected
  | retryable
  deriving DecidableEq, Repr

/-- 2xx and 3xx are no errors. -/
def classifyPing (status : Nat) : PingOutcome :=
  if 200 ≤ status ∧ status ≤ 399 then .valid
  else
    match classifyHttpStatus status with
    | .auth => .authRejected
    | .retryable => .retryable
    | .nonRetryable => .retryable

/-- What comes back from a request: nothing, or a status. -/
abbrev Reply := Option Nat

/-- What comes back from `POST managers/auth`. A success whose body is not the expected JSON gives
no response. -/
inductive AuthReply where
  | transport (error : String)
  | rejected (status : Nat) (body : String)
  | unreadable (error : String)
  | accepted (serverBootstrapToken : Option String)
  deriving DecidableEq, Repr

/-- What one exchange of the account token meets: the control plane's reply and whether the two
files can be written. -/
structure BootstrapAnswers where
  reply : AuthReply
  persists : Except String Unit := .ok ()
  recordsFingerprint : Bool := true

/-- The client, with the two files it keeps. -/
structure ManagerAuth where
  /-- The account token at first, then the server token. -/
  token : String
  accountToken : String
  serverTokenFile : Option String := none
  accountFingerprintFile : Option String := none
  deriving DecidableEq, Repr

/-- A file without text counts as missing. -/
def loadToken (file : Option String) : Option String :=
  (file.map Text.trim).filter fun token => !token.isEmpty

namespace ManagerAuth

def new (accountToken : String) (serverTokenFile accountFingerprintFile : Option String) :
    ManagerAuth :=
  { token := trim accountToken
    accountToken := trim accountToken
    serverTokenFile := serverTokenFile
    accountFingerprintFile := accountFingerprintFile }

/-- The outcome of `POST managers/auth`. -/
def authenticate : AuthReply → Except String (Option String)
  | .transport error => .error error
  | .rejected status body =>
      if status = 401 then
        .error ("invalid bootstrap token (401) — get a fresh token from Rails settings: " ++ body)
      else .error ("manager auth failed: " ++ toString status ++ " - " ++ body)
  | .unreadable error => .error error
  | .accepted serverBootstrapToken => .ok serverBootstrapToken

variable (a : ManagerAuth)

/-- Best effort. -/
def recordFingerprint (fingerprint : String) (records : Bool) : ManagerAuth :=
  if records then { a with accountFingerprintFile := some fingerprint } else a

/-- Exchange the account token for a server token; keep the server token and the fingerprint of the
account token. -/
def bootstrap (fingerprint : String) (answers : BootstrapAnswers) : Except String ManagerAuth :=
  match authenticate answers.reply with
  | .error e => .error e
  | .ok none =>
      .error ("Rails accepted the account token but returned no server_bootstrap_token " ++
        "(server already exists for this installation_id) — update Rails to always " ++
        "include it, or write the token to the state dir manually")
  | .ok (some serverToken) =>
      if (trim serverToken).isEmpty then
        .error "Rails accepted the account token but returned an empty server_bootstrap_token"
      else
        match answers.persists with
        | .error e => .error e
        | .ok () =>
            .ok
              { { a with serverTokenFile := some (trim serverToken) }.recordFingerprint
                  fingerprint answers.recordsFingerprint with
                token := trim serverToken }

/-- Whether the control plane accepts a token when the manager starts. A token that is no header
value and a ping without reply are errors, a server error is not. -/
def validateToken (token : String) (reply : Reply) : Bool :=
  match bearerHeader lib token, reply with
  | none, _ => false
  | some _, none => false
  | some _, some status => !(status = 401 || status = 403 || status = 404)

/-- Adopt the server token that is on file. -/
def usePersistedToken (backfillFingerprint : Bool)
    (fingerprint : String) (reply : Reply) (records : Bool) : Option ManagerAuth :=
  match loadToken a.serverTokenFile with
  | none => none
  | some persisted =>
      if validateToken lib persisted reply then
        some
          { (if backfillFingerprint then a.recordFingerprint fingerprint records else a) with
            token := persisted }
      else none

/-- What `ensure_bootstrap_token` meets. -/
structure StartAnswers where
  ping : Reply
  backfills : Bool := true
  bootstrap : BootstrapAnswers

/-- The account tokens that are sent to `managers/auth`, and the server token the manager starts
with. A changed account token goes first; otherwise the token on file is kept as long as the control
plane takes it. -/
def ensureBootstrapToken (answers : StartAnswers) : List String × Except String ManagerAuth :=
  let fingerprint := lib.fingerprint a.accountToken
  let recorded := loadToken a.accountFingerprintFile
  if recorded.any (· ≠ fingerprint) then
    match a.bootstrap fingerprint answers.bootstrap with
    | .ok a' => ([a.accountToken], .ok a')
    | .error e =>
        match a.usePersistedToken lib false fingerprint answers.ping answers.backfills with
        | some a' => ([a.accountToken], .ok a')
        | none => ([a.accountToken], .error e)
  else
    match a.usePersistedToken lib recorded.isNone fingerprint answers.ping answers.backfills with
    | some a' => ([], .ok a')
    | none => ([a.accountToken], a.bootstrap fingerprint answers.bootstrap)

/-! ## Revalidation -/

/-- What `revalidate_bootstrap_token` meets. -/
structure RevalidationAnswers where
  ping : Reply
  bootstrap : BootstrapAnswers

/-- The verdict of the ping that revalidates the token. Without a reply, or if the token is no
header value, the token is kept. -/
def pingOutcome (ping : Reply) : PingOutcome :=
  match bearerHeader lib a.token, ping with
  | some _, some status => classifyPing status
  | _, _ => .retryable

/-- Re-onboard if the token is rejected. The result says whether the token changed. -/
def revalidateBootstrapToken (answers : RevalidationAnswers) : Except String (Bool × ManagerAuth) :=
  match a.pingOutcome lib answers.ping with
  | .valid => .ok (false, a)
  | .retryable => .ok (false, a)
  | .authRejected =>
      match a.bootstrap (lib.fingerprint a.accountToken) answers.bootstrap with
      | .error e => .error e
      | .ok a' => .ok (decide (a'.token ≠ a.token), a')

variable {a a' : ManagerAuth} {answers : RevalidationAnswers} {changed : Bool}

/-- A bootstrap that goes through leaves the client, and the file, with the token of the reply. -/
theorem token_bootstrap {fingerprint : String} {answers : BootstrapAnswers}
    (h : a.bootstrap fingerprint answers = .ok a') :
    ∃ token, answers.reply = .accepted (some token) ∧ trim token ≠ "" ∧
      a'.token = trim token ∧ a'.serverTokenFile = some (trim token) ∧
      (a'.accountFingerprintFile = some fingerprint ∨
        a'.accountFingerprintFile = a.accountFingerprintFile) := by
  unfold bootstrap at h
  split at h
  · cases h
  · cases h
  · next serverToken hreply =>
    have haccepted : answers.reply = .accepted (some serverToken) := by
      cases hr : answers.reply with
      | accepted token =>
        rw [hr] at hreply
        cases hreply
        rfl
      | transport error | unreadable error => rw [hr] at hreply; cases hreply
      | rejected status body =>
        rw [hr, authenticate] at hreply
        split at hreply <;> cases hreply
    split_ifs at h with hempty
    split at h
    · cases h
    · cases h
      refine ⟨serverToken, haccepted, fun heq => hempty (by rw [heq]; rfl), rfl, ?_⟩
      unfold recordFingerprint
      split_ifs
      · exact ⟨rfl, .inl rfl⟩
      · exact ⟨rfl, .inr rfl⟩

/-- What a revalidation can do. -/
theorem revalidateBootstrapToken_ok {lib : Externals}
    (h : a.revalidateBootstrapToken lib answers = .ok (changed, a')) :
    changed = decide (a'.token ≠ a.token) ∧
      (a.pingOutcome lib answers.ping = .authRejected ∧
          a.bootstrap (lib.fingerprint a.accountToken) answers.bootstrap = .ok a' ∨
        a.pingOutcome lib answers.ping ≠ .authRejected ∧ a' = a) := by
  unfold revalidateBootstrapToken at h
  split at h
  · next hping =>
    cases h
    simp [hping]
  · next hping =>
    cases h
    simp [hping]
  · next hping =>
    split at h
    · cases h
    · next hboot =>
      cases h
      exact ⟨rfl, .inl ⟨hping, hboot⟩⟩

/-! ## Restarts -/

/-- A start of the manager, or a revalidation by the one that runs. -/
inductive Call where
  | start (accountToken : String) (answers : StartAnswers)
  | revalidation (answers : RevalidationAnswers)

def Call.bootstrap : Call → BootstrapAnswers
  | .start _ answers => answers.bootstrap
  | .revalidation answers => answers.bootstrap

/-- The client that makes the call: a start makes a new one over the files. -/
def client (a : ManagerAuth) : Call → ManagerAuth
  | .start accountToken _ => new accountToken a.serverTokenFile a.accountFingerprintFile
  | .revalidation _ => a

section

variable (lib : Externals)

/-- The client after the call. An error leaves it as it was. -/
def call (a : ManagerAuth) (c : Call) : ManagerAuth :=
  match c with
  | .start _ answers => ((a.client c).ensureBootstrapToken lib answers).2.toOption.getD (a.client c)
  | .revalidation answers =>
      ((a.revalidateBootstrapToken lib answers).toOption.map Prod.snd).getD a

/-- A fingerprint is on file, and it is not the account token's. -/
def AccountTokenChanged (accountToken : String) (a : ManagerAuth) : Prop :=
  (loadToken a.accountFingerprintFile).any (· ≠ lib.fingerprint accountToken)

/-- The call sends the account token to `managers/auth`. -/
def Exchanges (a : ManagerAuth) (c : Call) : Prop :=
  match c with
  | .start _ answers =>
      (a.client c).accountToken ∈ ((a.client c).ensureBootstrapToken lib answers).1
  | .revalidation answers => a.pingOutcome lib answers.ping = .authRejected

/-- The call exchanges the account token, and the exchange goes through. -/
def Onboards (a : ManagerAuth) (c : Call) : Prop :=
  a.Exchanges lib c ∧
    (a.client c).bootstrap (lib.fingerprint (a.client c).accountToken) c.bootstrap =
      .ok (a.call lib c)

variable {lib} {c : Call}

/-- A call that brings no token leaves the server token and a fingerprint on file. -/
structure KeepsFiles (a a' : ManagerAuth) : Prop where
  serverToken : a'.serverTokenFile = a.serverTokenFile
  fingerprint : (loadToken a.accountFingerprintFile).isSome →
    a'.accountFingerprintFile = a.accountFingerprintFile

theorem KeepsFiles.refl (a : ManagerAuth) : a.KeepsFiles a := ⟨rfl, fun _ => rfl⟩

theorem keepsFiles_usePersistedToken {backfills records : Bool} {fingerprint : String}
    {ping : Reply} (hbackfills : (loadToken a.accountFingerprintFile).isSome → backfills = false)
    (h : a.usePersistedToken lib backfills fingerprint ping records = some a') :
    a.KeepsFiles a' := by
  unfold usePersistedToken recordFingerprint at h
  split at h
  · cases h
  · split_ifs at h with hvalid hbackfill
    · cases h
      exact ⟨rfl, fun hsome => absurd hbackfill (by simp [hbackfills hsome])⟩
    · cases h
      exact ⟨rfl, fun _ => rfl⟩
    · cases h
      exact ⟨rfl, fun _ => rfl⟩

theorem keepsFiles_start {answers : StartAnswers}
    (h : (a.ensureBootstrapToken lib answers).2.toOption.getD a = a') :
    a.accountToken ∈ (a.ensureBootstrapToken lib answers).1 ∧
        a.bootstrap (lib.fingerprint a.accountToken) answers.bootstrap = .ok a' ∨
      a.KeepsFiles a' := by
  unfold ensureBootstrapToken at h ⊢
  dsimp only at h ⊢
  split_ifs at h ⊢ with hchanged
  · split at h
    · next hboot => exact .inl ⟨by simp, h ▸ hboot⟩
    · split at h
      · next hpersisted =>
        cases h
        exact .inr (keepsFiles_usePersistedToken (fun _ => rfl) hpersisted)
      · cases h
        exact .inr (.refl a)
  · split at h
    · next hpersisted =>
      cases h
      exact .inr (keepsFiles_usePersistedToken (by simp) hpersisted)
    · next hpersisted =>
      cases hboot : a.bootstrap (lib.fingerprint a.accountToken) answers.bootstrap with
      | ok a'' =>
        rw [hboot] at h
        exact .inl ⟨by simp, congrArg Except.ok h⟩
      | error e =>
        rw [hboot] at h
        cases h
        exact .inr (.refl a)

/-- What a call can do. -/
theorem onboards_or_keepsFiles (a : ManagerAuth) (c : Call) :
    a.Onboards lib c ∨
      a.KeepsFiles (a.call lib c) ∧ ∀ answers, c = .revalidation answers → a.call lib c = a := by
  cases c with
  | start accountToken answers =>
    have hstart := @keepsFiles_start (a.client (.start accountToken answers)) _ lib answers rfl
    exact hstart.imp_right fun h => ⟨⟨h.serverToken, h.fingerprint⟩, nofun⟩
  | revalidation answers =>
    unfold Onboards call
    dsimp only
    cases h : a.revalidateBootstrapToken lib answers with
    | error e => exact .inr ⟨.refl a, fun _ _ => rfl⟩
    | ok result =>
      rcases (revalidateBootstrapToken_ok h).2 with honboards | ⟨-, hsame⟩
      · exact .inl honboards
      · exact .inr ⟨hsame ▸ .refl _, fun _ _ => hsame⟩

/-- A changed account token is exchanged, and the start ends in what the exchange brings. -/
theorem AccountTokenChanged.exchanges {answers : StartAnswers}
    (h : a.AccountTokenChanged lib a.accountToken) :
    a.accountToken ∈ (a.ensureBootstrapToken lib answers).1 ∧
      (a.bootstrap (lib.fingerprint a.accountToken) answers.bootstrap = .ok a' →
        (a.ensureBootstrapToken lib answers).2 = .ok a') := by
  unfold AccountTokenChanged at h
  unfold ensureBootstrapToken
  dsimp only
  rw [if_pos h]
  split
  · next hboot => exact ⟨mem_singleton_self _, fun hok => hboot.symm.trans hok⟩
  · next hboot =>
    constructor
    · split <;> exact mem_singleton_self _
    · intro hok
      cases hboot.symm.trans hok

variable (hhex : ∀ token, loadToken (some (lib.fingerprint token)) = some (lib.fingerprint token))

include hhex

/-- As long as no account token with its fingerprint is exchanged, an account token that is not the
one on file stays so. -/
theorem AccountTokenChanged.call {accountToken : String}
    (h : a.AccountTokenChanged lib accountToken)
    (hother : a.Onboards lib c →
      lib.fingerprint (a.client c).accountToken ≠ lib.fingerprint accountToken) :
    (a.call lib c).AccountTokenChanged lib accountToken := by
  have hfile : (a.client c).accountFingerprintFile = a.accountFingerprintFile := by
    cases c <;> rfl
  unfold AccountTokenChanged at h ⊢
  rcases onboards_or_keepsFiles a c with honboards | ⟨hkeeps, -⟩
  · obtain ⟨-, -, -, -, -, hnew | hold⟩ := token_bootstrap honboards.2
    · rw [hnew, hhex]
      simpa using hother honboards
    · rwa [hold, hfile]
  · rwa [hkeeps.fingerprint (Option.isSome_of_any h)]

/-- **Restarts.** After any starts and revalidations the next call replaces the server token on file
by a token that an exchange brought, which is not empty, or leaves it; a revalidation changes the
token in use only by an exchange after a rejection, and reports a change exactly if there is one.
An account token that is not the one whose fingerprint is on file is exchanged at every start until
an exchange of it goes through, and an exchange that does is what the start ends in. -/
theorem tokens_across_restarts (calls : List Call) (hrun : calls.foldl (call lib) a = a') :
    (∀ c, (a'.call lib c).serverTokenFile = a'.serverTokenFile ∨
      a'.Onboards lib c ∧ ∃ token, c.bootstrap.reply = .accepted (some token) ∧
        trim token ≠ "" ∧ (a'.call lib c).serverTokenFile = some (trim token)) ∧
    (∀ answers, ((a'.call lib (.revalidation answers)).token = a'.token ∨
        a'.Onboards lib (.revalidation answers)) ∧
      ((∃ a'', a'.revalidateBootstrapToken lib answers = .ok (true, a'')) ↔
        (a'.call lib (.revalidation answers)).token ≠ a'.token)) ∧
    ∀ accountToken, a.AccountTokenChanged lib (trim accountToken) →
      Each (call lib) (fun a c => a.Onboards lib c →
        lib.fingerprint (a.client c).accountToken ≠ lib.fingerprint (trim accountToken))
        a calls →
      ∀ answers, a'.Exchanges lib (.start accountToken answers) ∧
        ∀ b, (a'.client (.start accountToken answers)).bootstrap
            (lib.fingerprint (trim accountToken)) answers.bootstrap = .ok b →
          a'.call lib (.start accountToken answers) = b := by
  refine ⟨fun c => ?_, fun answers => ⟨?_, ?_⟩, fun accountToken hchanged hother answers => ?_⟩
  · rcases onboards_or_keepsFiles a' c with honboards | ⟨hkeeps, -⟩
    · obtain ⟨token, hreply, hempty, -, hfile, -⟩ := token_bootstrap honboards.2
      exact .inr ⟨honboards, token, hreply, hempty, hfile⟩
    · exact .inl hkeeps.serverToken
  · rcases onboards_or_keepsFiles a' (.revalidation answers) with honboards | ⟨-, hkept⟩
    · exact .inr honboards
    · exact .inl (congrArg token (hkept answers rfl))
  · unfold call
    dsimp only
    cases h : a'.revalidateBootstrapToken lib answers with
    | error e => simp [Except.toOption]
    | ok result => simp [Except.toOption, Prod.ext_iff, (revalidateBootstrapToken_ok h).1]
  · have hlast := (always_of_each (fun a c => .call hhex) hchanged hother).last
    rw [hrun] at hlast
    have hstart : (a'.client (.start accountToken answers)).AccountTokenChanged lib
      (a'.client (.start accountToken answers)).accountToken := hlast
    refine ⟨(@AccountTokenChanged.exchanges _ a' _ _ hstart).1, fun b hb => ?_⟩
    rw [call, hstart.exchanges.2 hb]
    rfl

omit hhex

/-- The fingerprints of the account tokens `new` and `old`. -/
def twoFingerprints : Externals where
  validHeader _ := true
  fingerprint token :=
    if token = "new" then "11507a0e2f5e69d5dfa40a62a1bd7b6ee57e6bcd85c67c9b8431b36fff21c437"
    else "cba06b5736faf67e54b07b561eae94395e774c517a7d910a54369e1263ccfbd4"

/-- The token on file is accepted, the exchange fails. -/
def noExchange : StartAnswers := ⟨some 200, true, { reply := .transport "unreachable" }⟩

/-- A new account token that could not be exchanged at one start is exchanged at the next. -/
theorem new_account_token_again :
    ∃ a, [.start "new" noExchange].foldl (call twoFingerprints)
        (new "old" (some "s1") (some (twoFingerprints.fingerprint "old"))) = a ∧
      a.token = "s1" ∧ a.Exchanges twoFingerprints (.start "new" noExchange) := by
  have hhex : ∀ token, loadToken (some (twoFingerprints.fingerprint token)) =
      some (twoFingerprints.fingerprint token) := by
    intro token
    unfold twoFingerprints
    dsimp only
    split <;> decide +kernel
  refine ⟨_, rfl, by decide +kernel, ((tokens_across_restarts hhex _ rfl).2.2 "new" ?_ ?_ _).1⟩
  · unfold AccountTokenChanged
    decide +kernel
  · exact ⟨fun honboards => (nomatch honboards.2), trivial⟩

end

end ManagerAuth

open ManagerAuth

/-! ## The requests of the loop -/

inductive RequestKind where
  /-- `GET managers/ping` -/
  | revalidation
  /-- `POST managers/auth`, always with the account token -/
  | authentication
  | agentStart
  | versionCheck
  | updateResult
  deriving DecidableEq, Repr

/-- A request the loop has made: the token it carries, and the server token of the latest
re-onboarding before it. -/
structure Request where
  kind : RequestKind
  (token onboarded : Option String)
  deriving DecidableEq, Repr

/-- The manager: the phases of its loop, its client, the updater's token and the requests so far. -/
structure Loop where
  supervisor : Supervisor := {}
  auth : ManagerAuth
  updaterToken : String
  sent : List Request := []
  /-- The server token of the latest re-onboarding that went through. -/
  onboarded : Option String := none
  deriving DecidableEq, Repr

/-- A step of the loop, with what the environment decides about it. -/
inductive LoopEvent where
  | dies (pid : Nat)
  | proceeds (answers : Answers) (revalidation : RevalidationAnswers)

namespace Loop

variable (lib : Externals)

/-- `main` up to its loop: the updater is made with the token of that time. -/
def new (auth : ManagerAuth) (answers : StartAnswers) : Except String Loop :=
  match (auth.ensureBootstrapToken lib answers).2 with
  | .error e => .error e
  | .ok auth => .ok { auth := auth, updaterToken := auth.token }

variable (m : Loop)

def send (requests : List (RequestKind × Option String)) : Loop :=
  { m with sent := m.sent ++ requests.map fun r => ⟨r.1, r.2, m.onboarded⟩ }

/-- The requests of a call other than the revalidation. An agent that cannot be spawned gets no
token, and a result is reported after a rollback that went through and after a success. -/
def requestsOf (a : Answers) : List (RequestKind × Option String) :=
  let agentStart := if a.spawns then [(.agentStart, some m.auth.token)] else []
  let updateResult := (RequestKind.updateResult, bearerHeader lib m.updaterToken)
  match m.supervisor.phase with
  | .starting => agentStart
  | .restarting => agentStart
  | .startingRotated => agentStart
  | .startingNew => agentStart
  | .startingOld => if a.spawns then agentStart ++ [updateResult] else []
  | .checkingUpdate => [(.versionCheck, bearerHeader lib m.updaterToken)]
  | .undoingInstall => if a.restored then [updateResult] else []
  | .newHealth => if a.healthy then [updateResult] else []
  | _ => []

/-- The ping, and the exchange of the account token if the ping is rejected. A token that is no
header value is not sent. -/
def revalidationRequests (answers : RevalidationAnswers) : List (RequestKind × Option String) :=
  match bearerHeader lib m.auth.token with
  | none => []
  | some token =>
      (.revalidation, some token) ::
        if m.auth.pingOutcome lib answers.ping = .authRejected then
          [(.authentication, bearerHeader lib m.auth.accountToken)]
        else []

/-- Revalidate the token, and go on with what came of it. -/
def revalidate (a : Answers) (answers : RevalidationAnswers) : Loop :=
  match m.auth.revalidateBootstrapToken lib answers with
  | .error _ =>
      { m.send (m.revalidationRequests lib answers) with
        supervisor := m.supervisor.proceed { a with revalidation := .failed } }
  | .ok (changed, auth) =>
      { m.send (m.revalidationRequests lib answers) with
        supervisor := m.supervisor.proceed
          { a with revalidation := if changed then .rotated else .unchanged }
        auth := auth
        onboarded :=
          if m.auth.pingOutcome lib answers.ping = .authRejected then some auth.token
          else m.onboarded }

def step : LoopEvent → Loop
  | .dies pid => { m with supervisor := m.supervisor.step (.dies pid) }
  | .proceeds a answers =>
      if m.supervisor.phase = .revalidating then m.revalidate lib a answers
      else { m.send (m.requestsOf lib a) with supervisor := m.supervisor.proceed a }

/-! ## Fresh tokens -/

/-- Every request but the exchange of the account token itself carries the server token of the
latest re-onboarding before it. -/
def Fresh : Prop :=
  ∀ r ∈ m.sent, r.kind ≠ .authentication → ∀ token ∈ r.onboarded, r.token = some token

instance (m : Loop) : Decidable m.Fresh :=
  inferInstanceAs (Decidable (∀ r ∈ m.sent, _ → ∀ token ∈ r.onboarded, r.token = some token))

/-- A re-onboarding brings the token that the updater has, and it can stand in a header. -/
def BringsUpdaterToken : LoopEvent → Prop
  | .dies _ => True
  | .proceeds _ answers =>
      m.supervisor.phase = .revalidating → m.auth.pingOutcome lib answers.ping = .authRejected →
        ∀ token, answers.bootstrap.reply = .accepted (some token) →
          trim token = m.updaterToken ∧ bearerHeader lib (trim token) = some (trim token)

/-- After a re-onboarding all components have its token. -/
structure InStep (m : Loop) : Prop where
  fresh : m.Fresh
  auth : ∀ token ∈ m.onboarded, m.auth.token = token
  updater : ∀ token ∈ m.onboarded, m.updaterToken = token
  header : ∀ token ∈ m.onboarded, bearerHeader lib token = some token

variable {lib}

variable {m : Loop} {requests : List (RequestKind × Option String)} (auth : ManagerAuth)

theorem Fresh.send (h : m.Fresh)
    (hnew : ∀ r ∈ requests, r.1 ≠ .authentication → ∀ token ∈ m.onboarded, r.2 = some token) :
    (m.send requests).Fresh := by
  intro r hr
  rcases mem_append.1 hr with hr | hr
  · exact h r hr
  · obtain ⟨request, hrequest, rfl⟩ := mem_map.1 hr
    exact hnew request hrequest

variable (h : InStep lib m)

include h

theorem InStep.send
    (hnew : ∀ r ∈ requests, r.1 ≠ .authentication → ∀ token ∈ m.onboarded, r.2 = some token) :
    InStep lib (m.send requests) :=
  ⟨h.fresh.send hnew, h.auth, h.updater, h.header⟩

theorem InStep.supervisor (supervisor : Supervisor) :
    InStep lib { m with supervisor := supervisor } :=
  ⟨h.fresh, h.auth, h.updater, h.header⟩

omit h in
theorem inStep_of_start : InStep lib { auth := auth, updaterToken := auth.token } := by
  have hnone : ∀ {P : String → Prop}, ∀ token ∈ (none : Option String), P token :=
    fun token htoken => absurd htoken (Option.not_mem_none token)
  exact ⟨forall_mem_nil _, hnone, hnone, hnone⟩

/-- A re-onboarding, whatever phase it leads to, brings the token that the updater has. -/
theorem InStep.onboard (supervisor : Supervisor) (auth : ManagerAuth)
    (hupdater : m.updaterToken = auth.token)
    (hheader : bearerHeader lib auth.token = some auth.token) :
    InStep lib { m with supervisor := supervisor, auth := auth, onboarded := some auth.token } := by
  refine ⟨h.fresh, ?_, ?_, ?_⟩ <;> intro token htoken <;> cases htoken
  · rfl
  · exact hupdater
  · exact hheader

omit h in
/-- A call other than the revalidation hands out the client's token or the updater's. -/
theorem token_of_mem_requestsOf {a : Answers} {r : RequestKind × Option String}
    (hr : r ∈ m.requestsOf lib a) :
    r.2 = some m.auth.token ∨ r.2 = bearerHeader lib m.updaterToken := by
  have hif : ∀ {b : Bool} {requests : List (RequestKind × Option String)},
      r ∈ (if b then requests else []) → r ∈ requests := by
    intro b requests hmem
    split at hmem
    · exact hmem
    · cases hmem
  have htoken : ∀ {kind : RequestKind} {token : Option String}, r ∈ [(kind, token)] →
      r.2 = token := by
    intro kind token hmem
    rw [mem_singleton.1 hmem]
  have hagent : r ∈ (if a.spawns then [(RequestKind.agentStart, some m.auth.token)] else []) →
      r.2 = some m.auth.token := fun hmem => htoken (hif hmem)
  have hupdater : ∀ {kind : RequestKind}, r ∈ [(kind, bearerHeader lib m.updaterToken)] →
      r.2 = bearerHeader lib m.updaterToken := htoken
  unfold Loop.requestsOf at hr
  cases hphase : m.supervisor.phase <;> rw [hphase] at hr <;> dsimp only at hr
  case starting => exact .inl (hagent hr)
  case restarting => exact .inl (hagent hr)
  case startingRotated => exact .inl (hagent hr)
  case startingNew => exact .inl (hagent hr)
  case startingOld =>
    rcases mem_append.1 (hif hr) with hr | hr
    · exact .inl (hagent hr)
    · exact .inr (hupdater hr)
  case checkingUpdate => exact .inr (hupdater hr)
  case undoingInstall => exact .inr (hupdater (hif hr))
  case newHealth => exact .inr (hupdater (hif hr))
  all_goals cases hr

theorem InStep.requestsOf (a : Answers) :
    ∀ r ∈ m.requestsOf lib a, ∀ token ∈ m.onboarded, r.2 = some token := by
  intro r hr token htoken
  rcases token_of_mem_requestsOf hr with hagent | hupdater
  · rw [hagent, h.auth token htoken]
  · rw [hupdater, h.updater token htoken, h.header token htoken]

theorem InStep.revalidationRequests (answers : RevalidationAnswers) :
    ∀ r ∈ m.revalidationRequests lib answers, r.1 ≠ .authentication →
      ∀ token ∈ m.onboarded, r.2 = some token := by
  intro r hr hkind token htoken
  unfold Loop.revalidationRequests at hr
  rw [h.auth token htoken, h.header token htoken] at hr
  rcases mem_cons.1 hr with rfl | hr
  · rfl
  · split_ifs at hr
    · obtain rfl := mem_singleton.1 hr
      exact absurd rfl hkind
    · cases hr

theorem InStep.revalidate (a : Answers) (answers : RevalidationAnswers)
    (hphase : m.supervisor.phase = .revalidating)
    (hbrings : m.BringsUpdaterToken lib (.proceeds a answers)) :
    InStep lib (m.revalidate lib a answers) := by
  have hsent := h.send (h.revalidationRequests answers)
  unfold Loop.revalidate
  split
  · exact hsent.supervisor _
  · next changed auth hok =>
    rcases (revalidateBootstrapToken_ok hok).2 with ⟨hrejected, hboot⟩ | ⟨hkept, rfl⟩
    · -- the new token is the one the updater has
      obtain ⟨token, hreply, -, htoken, -⟩ := token_bootstrap hboot
      obtain ⟨hupdater, hheader⟩ := hbrings hphase hrejected token hreply
      rw [← htoken] at hupdater hheader
      rw [if_pos hrejected]
      exact hsent.onboard _ auth hupdater.symm hheader
    · -- no exchange was made
      rw [if_neg hkept]
      exact hsent.supervisor _

theorem InStep.step (e : LoopEvent) (hbrings : m.BringsUpdaterToken lib e) :
    InStep lib (m.step lib e) := by
  cases e with
  | dies pid => exact h.supervisor _
  | proceeds a answers =>
    unfold Loop.step
    dsimp only
    split
    · next hphase => exact h.revalidate a answers hphase hbrings
    · exact (h.send fun r hr _ => h.requestsOf a r hr).supervisor _

omit h

/-- **Fresh tokens.** However the manager starts, in every run of its loop in which a re-onboarding
brings the token that the updater has: every request after a re-onboarding carries the server token
of the latest one. -/
theorem sent_fresh {auth : ManagerAuth} {answers : StartAnswers} {m : Loop}
    (hnew : Loop.new lib auth answers = .ok m) (events : List LoopEvent)
    (h : Each (Loop.step lib) (BringsUpdaterToken lib) m events) :
    Always (Loop.step lib) Fresh m events := by
  have hstart : InStep lib m := by
    unfold Loop.new at hnew
    split at hnew
    · cases hnew
    · cases hnew
      exact inStep_of_start _
  have hstep : ∀ m e, InStep lib m → BringsUpdaterToken lib m e → InStep lib (m.step lib e) :=
    fun m e hm hbrings => hm.step e hbrings
  exact (always_of_each hstep hstart h).mono fun m hm => hm.fresh

/-- Every header value is taken, and a token is its own fingerprint. -/
def plain : Externals := ⟨fun _ => true, id⟩

/-- A manager with the server token `s1` on file. -/
def onFile : ManagerAuth := .new "account" (some "s1") (some "account")

def startAnswers : StartAnswers :=
  { ping := some 200, bootstrap := { reply := .transport "unreachable" } }

/-- The manager after its start. -/
def started : Loop := { auth := { onFile with token := "s1" }, updaterToken := "s1" }

/-- The ping is accepted. -/
def accepted : RevalidationAnswers :=
  { ping := some 200, bootstrap := { reply := .transport "unreachable" } }

/-- The ping is rejected, and the re-onboarding brings a token. -/
def reonboarding (token : String) : RevalidationAnswers :=
  { ping := some 401, bootstrap := { reply := .accepted (some token) } }

/-- The agent is started, the first tick re-onboards with a token and goes on to check the
version. -/
def reonboardingRun (token : String) : List LoopEvent :=
  List.replicate 4 (.proceeds {} accepted) ++ [.proceeds {} (reonboarding token)] ++
    List.replicate 4 (.proceeds {} accepted)

instance (m : Loop) : ∀ e, Decidable (m.BringsUpdaterToken plain e)
  | .dies _ => inferInstanceAs (Decidable True)
  | .proceeds _ answers =>
      match h : answers.bootstrap.reply with
      | .accepted (some token) =>
          decidable_of_iff
            (m.supervisor.phase = .revalidating →
              m.auth.pingOutcome plain answers.ping = .authRejected →
                trim token = m.updaterToken ∧ bearerHeader plain (trim token) = some (trim token))
            (by simp [BringsUpdaterToken, h])
      | .accepted none | .transport _ | .rejected _ _ | .unreadable _ =>
          isTrue (by simp [BringsUpdaterToken, h])

theorem reonboarding_same_token_fresh :
    Loop.new plain onFile startAnswers = .ok started ∧
      ((reonboardingRun "s1").foldl (Loop.step plain) started).onboarded = some "s1" ∧
      Always (Loop.step plain) Fresh started (reonboardingRun "s1") :=
  ⟨by decide +kernel, by decide +kernel,
    sent_fresh (by decide +kernel : Loop.new plain onFile startAnswers = .ok started)
      (reonboardingRun "s1") (by decide +kernel)⟩

/-- The version check after a re-onboarding with a new token carries the old one. -/
theorem stale_version_check :
    Loop.new plain onFile startAnswers = .ok started ∧
      ¬ Always (Loop.step plain) Fresh started (reonboardingRun "s2") :=
  ⟨by decide +kernel, by decide +kernel⟩

end Loop

end EdgePacer.Manager
