import Dbx.Web.Routes

/-!
# The middleware in front of the API routes

The routes of the API router carry three layers, from the outside in: `auth_middleware`,
`demo_mode_gate` and `migration_gate`. The router is nested at `/api`, and where a public base path
is configured the whole application is nested at that path, so each layer sees a request path
without those prefixes. Each layer takes the API path back out of the path it sees with
`middleware_api_path_suffix`.

## Main results

* `middlewareApiPathSuffix_registered`: what the layers see of a path that has a handler
* `handleApi_handled_iff`: when a request without a live session reaches its handler
* `serveApi_not_handled_iff`: the base paths and request paths for which it does not
-/

namespace Dbx.Web

open List

/-! ## Paths -/

open Text

/-- `normalize_public_base_path`; `none` where the source panics. -/
def normalizePublicBasePath (value : Option Text) : Option Text :=
  let head := (Text.splitOn (fun c => c == '?' || c == '#') (value.getD ['/'])).headD ['/']
  let trimmed := trimMatches (· == '/') (trim head)
  if trimmed.any fun c =>
      isAsciiControl c || isAsciiWhitespace c || c == ';' || c == ',' then none
  else if trimmed.isEmpty then some ['/']
  else some ('/' :: trimmed)

/-- A segment of a nesting path that stands for any segment. -/
def isCapture (segment : Text) : Bool :=
  ['\x7b'].isPrefixOf segment && ['\x7d'].isSuffixOf segment &&
    !(['\x7b', '\x7b'].isPrefixOf segment) && !(['\x7d', '\x7d'].isSuffixOf segment) &&
    !(['\x7b', '*'].isPrefixOf segment)

/-- The segments of a path after those of a nesting path. -/
def stripSegments : List Text → List Text → Option (List Text)
  | [], path => some path
  | _ :: _, [] => none
  | nest :: nests, segment :: path =>
    if (isCapture nest && !segment.isEmpty) || segment == nest then stripSegments nests path
    else none

/-- The path a router nested at `nest` sees. -/
def stripNest (nest path : Text) : Option Text :=
  (stripSegments (pathSegments nest) (pathSegments path)).map fun segments =>
    '/' :: ['/'].intercalate segments

/-- The path the API router sees: `mount_static_assets` nests the application at a base path
other than `/`, and `main` nests the API router at `/api` inside it. -/
def nestedPath (publicBasePath path : Text) : Option Text :=
  (if publicBasePath = ['/'] then some path else stripNest publicBasePath path).bind
    (stripNest "/api".toList)

/-- `api_path_suffix`. -/
def apiPathSuffix (path publicBasePath : Text) : Option Text :=
  match stripPrefix "/api/".toList path with
  | some suffix => some suffix
  | none =>
    let base := trimEndMatches (· == '/') publicBasePath
    if base.isEmpty || base == ['/'] then none
    else (stripPrefix base path).bind (stripPrefix "/api/".toList)

/-- `middleware_api_path_suffix`. -/
def middlewareApiPathSuffix (path publicBasePath : Text) : Option Text :=
  match apiPathSuffix path publicBasePath with
  | some suffix => some suffix
  | none =>
    let base := trimEndMatches (· == '/') publicBasePath
    if !base.isEmpty && base != ['/'] && (stripPrefix base path).isSome then none
    else (stripPrefix ['/'] path).filter fun suffix => !suffix.isEmpty

/-! ## Requests and layers -/

/-- The parts of the server state that the layers read. -/
structure WebState where
  publicBasePath : Text
  passwordDisabled : Bool
  passwordHash : Option Text
  sessions : List Text
  demoMode : Bool
  migrationReady : Bool

/-- A request: its method, its path, and its cookie header where that is readable text. -/
structure Request where
  method : Method
  path : Text
  cookie : Option Text

/-- A response: the handler ran for a credential owner, or a layer or the router answered. -/
inductive Response
  | handled (owner : Option Text)
  | status (code : Nat)
  | error (status : Nat) (code message : String)
  deriving DecidableEq, Repr

/-- The first nonempty session token among the pairs of a cookie header. -/
def sessionTokenOfPairs : List Text → Option Text
  | [] => none
  | pair :: pairs =>
    match stripPrefix "dbx_session=".toList (trim pair) with
    | some value => if value.isEmpty then sessionTokenOfPairs pairs else some value
    | none => sessionTokenOfPairs pairs

/-- `session_token_from_headers`. -/
def sessionTokenFromHeaders (cookie : Option Text) : Option Text :=
  cookie.bind fun header => sessionTokenOfPairs (Text.splitOn (· == ';') header)

/-- The API paths that `auth_middleware` lets through without a session. -/
def isBootstrapSuffix (suffix : Text) : Bool :=
  suffix == "auth/login".toList || suffix == "auth/setup".toList || suffix == "auth/check".toList

/-- `auth_middleware`: the inner service gets the credential owner of the request. -/
def authMiddleware (state : WebState) (request : Request) (next : Option Text → Response) :
    Response :=
  let apiSuffix := middlewareApiPathSuffix request.path state.publicBasePath
  if apiSuffix.any isBootstrapSuffix then next none
  -- static files
  else if apiSuffix.isNone then next none
  else if state.passwordDisabled then next none
  else if state.passwordHash.isNone then .status 401
  else
    match sessionTokenFromHeaders request.cookie with
    | some token => if state.sessions.contains token then next (some token) else .status 401
    | none => .status 401

/-- `BLOCKED_EXACT`. -/
def blockedExact : List String :=
  ["auth/setup", "auth/change-password", "connection/test", "connection/test-info",
   "connection/test-ssh-tunnel", "mq/test-connection", "nacos/test-connection",
   "tunnel-profiles/test", "connection/save", "connection/mcp/add", "connection/mcp/duplicate",
   "connection/mcp/remove", "tunnel-profiles/save", "app-settings/config/decrypt",
   "app-settings/mcp-http", "app-settings/mcp-http/rotate-token", "ssh/config-hosts",
   "plugin/data/grant"]

/-- `BLOCKED_MUTATING_PREFIXES`. -/
def blockedMutatingPrefixes : List String := ["plugins/", "jdbc/", "agents/", "cloud-sync/"]

/-- `BLOCKED_AI_EXACT`. -/
def blockedAiExact : List String :=
  ["ai/config", "ai/provider-config", "ai/configs", "ai/default-config", "ai/config-item",
   "ai/chat-selection", "ai/complete", "ai/stream", "ai/agent-stream", "ai/test-connection",
   "ai/models", "ai/model-effort", "ai/plugin-tools/plugins", "ai/plugin-tools/preview"]

/-- `is_demo_blocked`. -/
def isDemoBlocked (method : Method) (suffix : Text) : Bool :=
  blockedExact.any (fun path => path.toList == suffix) ||
    (method != .get && (blockedMutatingPrefixes.any (fun path => path.toList.isPrefixOf suffix) ||
      "ai/config/".toList.isPrefixOf suffix)) ||
    (method != .get && blockedAiExact.any (fun path => path.toList == suffix))

/-- `demo_mode_gate`. -/
def demoModeGate (state : WebState) (request : Request) (next : Response) : Response :=
  if state.demoMode && (middlewareApiPathSuffix request.path state.publicBasePath).any
      (isDemoBlocked request.method) then
    .error 403 "DEMO_MODE_DISABLED" "This operation is disabled in demo mode"
  else next

/-- The API paths that `migration_gate` lets through before the migration is complete. -/
def allowedBeforeMigration (suffix : Text) : Bool :=
  ["migration/status", "migration/start", "migration/retry", "migration/cleanup-backups",
    "ping"].any (fun path => path.toList == suffix) || "auth/".toList.isPrefixOf suffix

/-- `migration_gate`. -/
def migrationGate (state : WebState) (request : Request) (next : Response) : Response :=
  if !(middlewareApiPathSuffix request.path state.publicBasePath).any allowedBeforeMigration &&
      !state.migrationReady then
    .error 423 "DATA_MIGRATION_REQUIRED" "Complete the data security migration before using DBX"
  else next

/-- The route behind the layers. -/
def Route.respond (route : Route) (request : Request) (owner : Option Text) : Response :=
  if route.handles request.method then .handled owner else .status 405

/-- The response of the API router. The layers are around its routes, so no layer sees a path
without a route: the fallback of the application answers it, with 404 or a static file. -/
def handleApi (features : Features) (state : WebState) (request : Request) : Option Response :=
  (dispatch features request.path).map fun route =>
    authMiddleware state request fun owner =>
      demoModeGate state request (migrationGate state request (route.respond request owner))

/-- The response of the API router to a request from outside, `none` for a path that has no route
in it. -/
def serveApi (features : Features) (state : WebState) (request : Request) : Option Response :=
  (nestedPath state.publicBasePath request.path).bind fun path =>
    handleApi features state { request with path }

/-! ## What the layers see -/

variable {value : Option Text} {base : Text}

/-- An accepted base path is `/`, or has no slash at its end. -/
theorem trimEndMatches_basePath (h : normalizePublicBasePath value = some base) :
    trimEndMatches (· == '/') base = if base = ['/'] then [] else base := by
  unfold normalizePublicBasePath at h
  simp only at h
  split at h
  · cases h
  split at h
  · cases h
    rfl
  next hne =>
    cases h
    generalize htrim : trimMatches _ _ = trimmed at hne
    obtain rfl | ⟨init, last, rfl⟩ := eq_nil_or_concat trimmed
    · simp at hne
    rw [concat_eq_append] at htrim ⊢
    have hlast := trimEndMatches_eq_concat htrim
    rw [if_neg (by simp), ← cons_append, trimEndMatches_eq_self (p := (· == '/')) hlast]

theorem basePath_ne_nil (h : normalizePublicBasePath value = some base) : base ≠ [] := by
  rintro rfl
  unfold normalizePublicBasePath at h
  simp only at h
  split at h
  · cases h
  · split at h <;> cases h

variable {features : Features} {method : Method} {path : Text}

/-- No path with a handler starts with `/api/`. -/
theorem stripPrefix_api_registered (h : registered features method path) :
    stripPrefix "/api/".toList path = none := by
  rw [stripPrefix_eq_none]
  rintro ⟨suffix, rfl⟩
  obtain ⟨rest, segment, segments, hrest, hsplit, -, hapi⟩ := registered_head h
  have hrest' : rest = 'a' :: 'p' :: 'i' :: '/' :: suffix := by simpa using hrest.symm
  subst hrest'
  exact hapi (by simpa [Text.splitOn] using (List.cons.inj hsplit).1.symm)

/-- The layers see the API path of a request that has a handler, unless the path below the API
happens to start with the base path: then they look for another `/api/` behind it. -/
theorem middlewareApiPathSuffix_registered (hbase : normalizePublicBasePath value = some base)
    (hroute : registered features method path) :
    middlewareApiPathSuffix path base =
      match (if base = ['/'] then none else stripPrefix base path) with
      | some rest => stripPrefix "/api/".toList rest
      | none => some path.tail := by
  unfold middlewareApiPathSuffix apiPathSuffix
  rw [stripPrefix_api_registered hroute, trimEndMatches_basePath hbase]
  obtain ⟨rest, segment, segments, rfl, hsplit, hne, -⟩ := registered_head hroute
  have hrest : rest ≠ [] := by
    rintro rfl
    simp [Text.splitOn] at hsplit
    exact hne hsplit.1
  have htail : (stripPrefix ['/'] ('/' :: rest)).filter (fun suffix => !suffix.isEmpty) =
      some rest := by
    rw [show '/' :: rest = ['/'] ++ rest from rfl, stripPrefix_append]
    simp [hrest]
  by_cases hslash : base = ['/']
  · simp [hslash, htail]
  · cases hstrip : stripPrefix base ('/' :: rest) with
    | none => simp [hslash, htail, basePath_ne_nil hbase, hstrip]
    | some behind =>
      cases hapi : stripPrefix "/api/".toList behind <;>
        simp [hslash, basePath_ne_nil hbase, hstrip, hapi] at *

/-! ## Requests without a session -/

/-- A cookie header carries a token when one of its pairs is a session cookie with that value. -/
def CarriesToken (cookie : Option Text) (token : Text) : Prop :=
  ∃ header, cookie = some header ∧ ∃ pair ∈ Text.splitOn (· == ';') header,
    trim pair = "dbx_session=".toList ++ token

theorem sessionTokenOfPairs_mem {pairs : List Text} {token : Text}
    (h : sessionTokenOfPairs pairs = some token) :
    ∃ pair ∈ pairs, trim pair = "dbx_session=".toList ++ token := by
  induction pairs with
  | nil => cases h
  | cons pair pairs ih =>
    have hrest (h : sessionTokenOfPairs pairs = some token) :
        ∃ p ∈ pair :: pairs, trim p = "dbx_session=".toList ++ token := by
      obtain ⟨other, hmem, hother⟩ := ih h
      exact ⟨other, mem_cons_of_mem _ hmem, hother⟩
    unfold sessionTokenOfPairs at h
    split at h
    · next value hvalue =>
      split at h
      · exact hrest h
      · cases h
        exact ⟨pair, mem_cons_self, stripPrefix_eq_some.mp hvalue⟩
    · exact hrest h

theorem sessionTokenFromHeaders_carries {cookie : Option Text} {token : Text}
    (h : sessionTokenFromHeaders cookie = some token) : CarriesToken cookie token := by
  obtain ⟨header, rfl, hpairs⟩ := Option.bind_eq_some_iff.mp h
  exact ⟨header, rfl, sessionTokenOfPairs_mem hpairs⟩

variable {request : Request} {state : WebState}

/-- Without a live session `auth_middleware` passes on the bootstrap paths and the paths in which
it finds no API path, and nothing else. -/
theorem authMiddleware_without_session (hprotected : state.passwordDisabled = false)
    (hsession : ∀ token ∈ state.sessions, ¬ CarriesToken request.cookie token)
    (next : Option Text → Response) :
    authMiddleware state request next =
      match middlewareApiPathSuffix request.path state.publicBasePath with
      | none => next none
      | some suffix => if isBootstrapSuffix suffix then next none else .status 401 := by
  unfold authMiddleware
  cases middlewareApiPathSuffix request.path state.publicBasePath with
  | none => simp
  | some suffix =>
    have htoken : ∀ token, sessionTokenFromHeaders request.cookie = some token →
        token ∉ state.sessions :=
      fun token h hmem => hsession token hmem (sessionTokenFromHeaders_carries h)
    cases h : sessionTokenFromHeaders request.cookie with
    | none => simp [hprotected]
    | some token => simp [hprotected, htoken token h]

variable {owner : Option Text}

theorem demoModeGate_handled {next : Response} :
    demoModeGate state request next = .handled owner ↔
      (state.demoMode → (middlewareApiPathSuffix request.path state.publicBasePath).any
        (isDemoBlocked request.method) = false) ∧ next = .handled owner := by
  unfold demoModeGate
  cases state.demoMode <;> split <;> simp_all

theorem migrationGate_handled {next : Response} :
    migrationGate state request next = .handled owner ↔
      ((middlewareApiPathSuffix request.path state.publicBasePath).any allowedBeforeMigration ∨
        state.migrationReady) ∧ next = .handled owner := by
  unfold migrationGate
  cases state.migrationReady <;> split <;> simp_all

theorem Route.respond_handled {route : Route} {owner owner' : Option Text} :
    route.respond request owner = .handled owner' ↔
      route.handles request.method ∧ owner' = owner := by
  unfold respond
  by_cases h : route.handles request.method <;> simp [h, eq_comm]

variable {suffix : Text}

theorem isBootstrapSuffix_iff : isBootstrapSuffix suffix ↔
    suffix = "auth/login".toList ∨ suffix = "auth/setup".toList ∨ suffix = "auth/check".toList := by
  simp only [isBootstrapSuffix, Bool.or_eq_true, beq_iff_eq, or_assoc]

theorem isDemoBlocked_bootstrap (h : isBootstrapSuffix suffix) :
    isDemoBlocked method suffix = (suffix == "auth/setup".toList) := by
  obtain rfl | rfl | rfl := isBootstrapSuffix_iff.mp h <;>
    simp [isDemoBlocked, blockedExact, blockedMutatingPrefixes, blockedAiExact, List.isPrefixOf]

theorem allowedBeforeMigration_bootstrap (h : isBootstrapSuffix suffix) :
    allowedBeforeMigration suffix := by
  obtain rfl | rfl | rfl := isBootstrapSuffix_iff.mp h <;> simp [allowedBeforeMigration]

/-- A request without a live session reaches its handler exactly when the layers find no API path
in it and the migration is complete, or find a bootstrap path that demo mode leaves open. -/
theorem handleApi_handled_iff (features : Features) (request : Request)
    (hprotected : state.passwordDisabled = false)
    (hsession : ∀ token ∈ state.sessions, ¬ CarriesToken request.cookie token) :
    (∃ owner, handleApi features state request = some (.handled owner)) ↔
      registered features request.method request.path ∧
        match middlewareApiPathSuffix request.path state.publicBasePath with
        | none => state.migrationReady
        | some suffix => isBootstrapSuffix suffix ∧
            (suffix = "auth/setup".toList → state.demoMode = false) := by
  unfold handleApi registered
  cases dispatch features request.path with
  | none => simp
  | some route =>
    rw [Option.map_some, authMiddleware_without_session hprotected hsession]
    cases hsuffix : middlewareApiPathSuffix request.path state.publicBasePath with
    | none =>
      simp [demoModeGate_handled, migrationGate_handled, Route.respond_handled, hsuffix, and_comm]
    | some suffix =>
      by_cases hboot : isBootstrapSuffix suffix
      · simp [demoModeGate_handled, migrationGate_handled, Route.respond_handled, hsuffix, hboot,
          isDemoBlocked_bootstrap hboot, allowedBeforeMigration_bootstrap hboot]
        cases state.demoMode <;> simp [and_comm]
      · simp [hboot]

/-- The requests that the layers take for static files or bootstrap requests: the path below the
API starts with the base path. -/
def Exposed (state : WebState) (path : Text) : Prop :=
  state.publicBasePath ≠ ['/'] ∧ ∃ rest, path = state.publicBasePath ++ rest ∧
    ((¬ "/api/".toList <+: rest ∧ state.migrationReady = true) ∨
      rest = "/api/auth/login".toList ∨ rest = "/api/auth/check".toList ∨
      (rest = "/api/auth/setup".toList ∧ state.demoMode = false))

def isBootstrapRoute (path : Text) : Prop :=
  path = "/auth/login".toList ∨ path = "/auth/setup".toList ∨ path = "/auth/check".toList

/-- What the layers make of the text behind the base path. -/
theorem exposed_rest_iff (state : WebState) (rest : Text) :
    (match stripPrefix "/api/".toList rest with
      | none => state.migrationReady
      | some suffix => isBootstrapSuffix suffix ∧
          (suffix = "auth/setup".toList → state.demoMode = false)) ↔
      ((¬ "/api/".toList <+: rest ∧ state.migrationReady) ∨
        rest = "/api/auth/login".toList ∨ rest = "/api/auth/check".toList ∨
        (rest = "/api/auth/setup".toList ∧ state.demoMode = false)) := by
  cases hapi : stripPrefix "/api/".toList rest with
  | none =>
    rw [stripPrefix_eq_none] at hapi
    have hne (suffix : Text) : rest ≠ "/api/".toList ++ suffix := by
      rintro rfl
      exact hapi (prefix_append _ _)
    simp_all
  | some suffix =>
    rw [stripPrefix_eq_some] at hapi
    subst hapi
    simp only [isBootstrapSuffix_iff, prefix_append, not_true_eq_false, false_and, false_or]
    constructor
    · rintro ⟨rfl | rfl | rfl, hdemo⟩
      · simp
      · simp [hdemo rfl]
      · simp
    · rintro (h | h | ⟨h, hdemo⟩)
      · simp [show suffix = "auth/login".toList by simpa using h]
      · simp [show suffix = "auth/check".toList by simpa using h]
      · simp [show suffix = "auth/setup".toList by simpa using h, hdemo]

theorem isBootstrapSuffix_tail {rest : Text} (hpath : path = '/' :: rest)
    (hboot : ¬ isBootstrapRoute path) : isBootstrapSuffix path.tail = false := by
  subst hpath
  rw [Bool.eq_false_iff, Ne, isBootstrapSuffix_iff]
  intro h
  exact hboot (h.imp (congrArg _) (Or.imp (congrArg _) (congrArg _)))

/-- **Requests without a live session.** Under an accepted base path and with password protection
on, such a request does not reach the handler of a route that needs a session exactly when the
layers cannot mistake its path. -/
theorem serveApi_not_handled_iff (features : Features) {value : Option Text} {state : WebState}
    {request : Request} {path : Text}
    (hbase : normalizePublicBasePath value = some state.publicBasePath)
    (hpath : nestedPath state.publicBasePath request.path = some path)
    (hboot : ¬ isBootstrapRoute path)
    (hprotected : state.passwordDisabled = false)
    (hsession : ∀ token ∈ state.sessions, ¬ CarriesToken request.cookie token) :
    (∀ owner, serveApi features state request ≠ some (.handled owner)) ↔
      (registered features request.method path = true → ¬ Exposed state path) := by
  rw [← not_iff_not]
  have hserve : serveApi features state request =
      handleApi features state { request with path } := by
    rw [serveApi, hpath, Option.bind_some]
  simp only [hserve, ne_eq, not_forall, not_not, exists_prop]
  rw [handleApi_handled_iff features { request with path } hprotected hsession]
  refine and_congr_right fun hroute => ?_
  rw [middlewareApiPathSuffix_registered hbase hroute]
  obtain ⟨below, -, -, hslash, -⟩ := registered_head hroute
  have hneeds : isBootstrapSuffix path.tail = false := isBootstrapSuffix_tail hslash hboot
  unfold Exposed
  by_cases hroot : state.publicBasePath = ['/']
  · simp [hroot, hneeds]
  -- a path that starts with the text of the base path is taken for one above the API
  cases hstrip : stripPrefix state.publicBasePath path with
  | none =>
    rw [stripPrefix_eq_none] at hstrip
    simp only [hroot, hneeds, if_false, Bool.false_eq_true, false_and, ne_eq, not_false_eq_true,
      true_and, false_iff, not_exists]
    rintro rest ⟨rfl, -⟩
    exact hstrip (prefix_append _ _)
  | some rest =>
    rw [stripPrefix_eq_some] at hstrip
    subst hstrip
    simp only [hroot, if_false, ne_eq, not_false_eq_true, true_and, append_cancel_left_eq,
      exists_eq_left']
    exact exposed_rest_iff state rest

/-- A protected server below the given base path, with nobody logged in. -/
def protectedServer (publicBasePath : Text) : WebState :=
  { publicBasePath, passwordDisabled := false, passwordHash := some ['h'], sessions := [],
    demoMode := false, migrationReady := true }

/-- Below `/dbx` the layers ask a query for a session. -/
theorem serveApi_not_handled_dbx :
    nestedPath "/dbx".toList "/dbx/api/query/execute".toList = some "/query/execute".toList ∧
    ∀ owner, serveApi ⟨true, true⟩ (protectedServer "/dbx".toList)
      ⟨.post, "/dbx/api/query/execute".toList, none⟩ ≠ some (.handled owner) := by
  have hpath : nestedPath "/dbx".toList "/dbx/api/query/execute".toList =
      some "/query/execute".toList := by decide +kernel
  have hbase : normalizePublicBasePath (some "/dbx/".toList) = some "/dbx".toList := by
    decide +kernel
  refine ⟨hpath, (serveApi_not_handled_iff ⟨true, true⟩ hbase hpath ?_ rfl ?_).mpr ?_⟩
  · simp [isBootstrapRoute]
  · simp [protectedServer]
  · rintro - ⟨-, rest, hrest, -⟩
    simp [protectedServer] at hrest

/-- Below `/data` the restore of a backup file runs without a session, for its path starts with
the base path. -/
theorem serveApi_handled_without_session :
    normalizePublicBasePath (some "/data".toList) = some "/data".toList ∧
    nestedPath "/data".toList "/data/api/database-backups/7/files/0/restore".toList =
      some "/database-backups/7/files/0/restore".toList ∧
    ¬ isBootstrapRoute "/database-backups/7/files/0/restore".toList ∧
    serveApi ⟨true, true⟩ (protectedServer "/data".toList)
      ⟨.post, "/data/api/database-backups/7/files/0/restore".toList, none⟩ =
        some (.handled none) := by
  refine ⟨by decide +kernel, by decide +kernel, by simp [isBootstrapRoute], by decide +kernel⟩

end Dbx.Web
