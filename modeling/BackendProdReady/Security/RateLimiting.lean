import BackendProdReady.Lib.KeyedMachines
import BackendProdReady.Security.ClientAddress

/-!
# Rate limits and who shares them

`get_user_id_or_ip` puts a request into the bucket of its user, if its token is accepted, and
otherwise into the bucket of its address.  The limiter keeps one state per bucket.  What the
token decoder and the limiter do is theirs: they are parameters.
-/

namespace BackendProdReady.Security.RateLimiting

open BackendProdReady.Lib.KeyedMachines
open BackendProdReady.Lib.Text
open BackendProdReady.Lib.IpAddress
open BackendProdReady.Security.ProxyValidation
open BackendProdReady.Security.ClientAddress

/-! ## Source -/

structure Request where
  authorization : Option String
  xForwardedFor : Option String
  /-- `request.client.host`. -/
  directIp : Option String
  path : String
  /-- When it arrives, in milliseconds. -/
  time : Nat
deriving DecidableEq

inductive Decoded
  /-- The payload with its `user_id`, if it has one. -/
  | payload (userId : Option String)
  | jwtTokenError
  | keyError
deriving DecidableEq

/-- `_auth_header.split(" ")[1]` of a header that starts with `Bearer `. -/
def bearerToken (authHeader : Option String) : Option String :=
  match authHeader with
  | none => none
  | some authHeader =>
      if "Bearer ".toList.isPrefixOf authHeader.toList then (split ' ' authHeader)[1]? else none

section Source

-- `jwtDecode` is none where the module `backend.core.auth.jwt` is not there.
variable (jwtDecode : Option (String → Decoded)) (cidrs : List String)

/-- The user that the token is accepted for. -/
def tokenUser (request : Request) : Option String :=
  match bearerToken request.authorization, jwtDecode with
  | some token, some jwtDecode =>
      match jwtDecode token with
      | .payload userId => userId
      | .jwtTokenError | .keyError => none
  | _, _ => none

def userBucket (userId : String) : String := "user:" ++ userId

def ipBucket (clientIp : String) : String := "ip:" ++ clientIp

def getUserIdOrIp (request : Request) : Except ConfigurationError String :=
  match tokenUser jwtDecode request with
  | some userId => .ok (userBucket userId)
  | none =>
      (extractClientIpSecure cidrs request.xForwardedFor request.directIp).map ipBucket

end Source

/-- `str.split()`: the words between white space. -/
def words (s : String) : List String :=
  ((s.toList.splitOnP isSpace).filter (!·.isEmpty)).map String.ofList

/-- The `Retry-After` of `rate_limit_exceeded_handler`, for the detail of the exception. -/
def retryAfter (detail : String) : Nat :=
  if detail = "" then 60
  else if "minute" ∈ words detail then 60
  else if "second" ∈ words detail then 1
  else if "hour" ∈ words detail then 3600
  else 60

inductive Answer
  | passed
  /-- Status 429, with the seconds of `Retry-After`. -/
  | exceeded (retryAfter : Nat)
deriving DecidableEq

/-- The limiter passes a request or raises `RateLimitExceeded` with this detail. -/
abbrev Limiter (σ : Type) := σ → Request → σ × Option String

def handled {σ : Type} (limiter : Limiter σ) : React σ Request Answer := fun s request =>
  match limiter s request with
  | (s, none) => (s, .passed)
  | (s, some detail) => (s, .exceeded (retryAfter detail))

/-- The answers to a sequence of requests, with one state of the limiter per bucket. -/
def serve {σ : Type} (jwtDecode : Option (String → Decoded)) (cidrs : List String)
    (limiter : Limiter σ) (s : Except ConfigurationError String → σ) (requests : List Request) :
    List (Request × Answer) :=
  keyedAnswers (handled limiter) (getUserIdOrIp jwtDecode cidrs) s requests

/-! ## Where a request comes from -/

/-- A client at this address sent the request, itself or through trusted proxies, the first of
which wrote the address at the end of whatever the client sent. -/
inductive SentFrom (networks : List IPNetwork) (addr : String) (request : Request) : Prop
  | direct (h : request.directIp = some addr)
  | forwarded (proxy spoofed : String) (before after : List String)
      (hproxy : request.directIp = some proxy) (htrusted : Trusted networks proxy)
      (hheader : request.xForwardedFor = some spoofed)
      (hentries : entries spoofed = before ++ addr :: after)
      (hafter : ∀ e ∈ after, Trusted networks e)

section Buckets

variable {jwtDecode : Option (String → Decoded)} {cidrs : List String} {networks : List IPNetwork}
  {addr : String} {request : Request}

theorem not_trusted_of_outsider {text : String} (h : Outsider networks text) :
    ¬ Trusted networks text := by
  rintro ⟨addr, haddr, network, hnetwork, hcontains⟩
  obtain ⟨addr', haddr', hnone⟩ := h
  obtain rfl := Option.some.inj (haddr.symm.trans haddr')
  rw [hnone network hnetwork] at hcontains
  cases hcontains

theorem lastIndex?_of_forall {α : Type} {p : α → Bool} {xs : List α}
    (h : ∀ x ∈ xs, p x = false) : lastIndex? p xs = none := by
  induction xs with
  | nil => rfl
  | cons x xs ih =>
      rw [lastIndex?, ih fun y hy => h y (List.mem_cons_of_mem x hy)]
      simp [h x List.mem_cons_self]

/-- The address of a client outside the trusted networks is extracted, whatever it writes into
the header. -/
theorem extract_of_sentFrom (hnetworks : parseTrustedNetworks cidrs = .ok networks)
    (haddr : Outsider networks addr) (h : SentFrom networks addr request) :
    extractClientIpSecure cidrs request.xForwardedFor request.directIp = .ok addr := by
  cases h with
  | direct hdirect =>
      have huntrusted : ∀ d, request.directIp = some d → ¬ Trusted networks d := by
        intro d hd
        obtain rfl := Option.some.inj (hdirect.symm.trans hd)
        exact not_trusted_of_outsider haddr
      have hne : addr ≠ "" := by
        rintro rfl
        obtain ⟨a, ha, -⟩ := haddr
        rw [ipAddress_empty] at ha
        cases ha
      rw [extract_of_not_trusted hnetworks huntrusted, hdirect]
      simp [orUnknown]
  | forwarded proxy spoofed before after hproxy htrusted hheader hentries hafter =>
      have hlater : lastIndex? (isOutsider networks) after = none :=
        lastIndex?_of_forall fun e he => by
          rw [Bool.eq_false_iff]
          exact fun hout =>
            not_trusted_of_outsider ((isOutsider_iff networks e).mp hout) (hafter e he)
      have hlast : lastIndex? (isOutsider networks) (addr :: after) = some 0 := by
        rw [lastIndex?, hlater]
        exact if_pos ((isOutsider_iff networks addr).mpr haddr)
      have horigin : origin networks spoofed = .entry before.length := by
        rw [origin, hentries, lastIndex?_append before hlast]
        rfl
      rw [hheader, hproxy, extract_of_trusted hnetworks htrusted, horigin]
      simp [Origin.text, hentries]

/-- Its bucket is that of its address, or of a user that one of its tokens is accepted for. -/
theorem bucket_of_sentFrom (hnetworks : parseTrustedNetworks cidrs = .ok networks)
    (haddr : Outsider networks addr) (h : SentFrom networks addr request) :
    getUserIdOrIp jwtDecode cidrs request =
      .ok (match tokenUser jwtDecode request with
        | some userId => userBucket userId
        | none => ipBucket addr) := by
  unfold getUserIdOrIp
  split
  · rfl
  · rw [extract_of_sentFrom hnetworks haddr h]
    rfl

end Buckets

/-! ## Every sequence of requests -/

/-- The buckets of a client at `addr` with accepted tokens of `users`. -/
def Owns (addr : String) (users : List String) (bucket : String) : Prop :=
  bucket = ipBucket addr ∨ ∃ userId ∈ users, bucket = userBucket userId

/-- The client at `addr` sent the request, and its token is not accepted for anybody but
`users`. -/
structure SentBy (jwtDecode : Option (String → Decoded)) (networks : List IPNetwork)
    (addr : String) (users : List String) (request : Request) : Prop where
  sentFrom : SentFrom networks addr request
  token : ∀ userId, tokenUser jwtDecode request = some userId → userId ∈ users

theorem ipBucket_inj {a b : String} (h : ipBucket a = ipBucket b) : a = b := by
  simpa [ipBucket] using h

theorem userBucket_inj {u v : String} (h : userBucket u = userBucket v) : u = v := by
  simpa [userBucket] using h

theorem ipBucket_ne_userBucket (a u : String) : ipBucket a ≠ userBucket u := by
  intro h
  have hhead := congrArg (fun s : String => s.toList.head?) h
  simp [ipBucket, userBucket, String.toList_append] at hhead

theorem owns_ipBucket {addr a : String} {users : List String} :
    Owns addr users (ipBucket a) ↔ a = addr := by
  constructor
  · rintro (h | ⟨userId, -, h⟩)
    · exact ipBucket_inj h
    · exact absurd h (ipBucket_ne_userBucket a userId)
  · rintro rfl
    exact .inl rfl

theorem owns_userBucket {addr u : String} {users : List String} :
    Owns addr users (userBucket u) ↔ u ∈ users := by
  constructor
  · rintro (h | ⟨userId, hmem, h⟩)
    · exact absurd h.symm (ipBucket_ne_userBucket addr u)
    · rwa [userBucket_inj h]
  · exact fun hmem => .inr ⟨u, hmem, rfl⟩

structure IsolationContract {σ : Type} (jwtDecode : Option (String → Decoded))
    (cidrs : List String) (networks : List IPNetwork) (addr : String) (users : List String)
    (limiter : Limiter σ) (s : Except ConfigurationError String → σ) (requests : List Request) :
    Prop where
  addresses : ∀ a, Owns addr users (ipBucket a) ↔ a = addr
  accounts : ∀ userId, Owns addr users (userBucket userId) ↔ userId ∈ users
  /-- The client's requests change no answer in the buckets of others. -/
  unaffected : ∀ bucket, ¬ Owns addr users bucket → ∀ client : Request → Bool,
    (∀ request, client request = true → SentBy jwtDecode networks addr users request) →
    ((serve jwtDecode cidrs limiter s requests).filter fun e =>
        getUserIdOrIp jwtDecode cidrs e.1 = .ok bucket).map Prod.snd =
      ((serve jwtDecode cidrs limiter s (requests.filter (!client ·))).filter fun e =>
        getUserIdOrIp jwtDecode cidrs e.1 = .ok bucket).map Prod.snd
  /-- Without accepted tokens, one state of the limiter answers all of them. -/
  limited : (∀ request ∈ requests, SentBy jwtDecode networks addr [] request) →
    (serve jwtDecode cidrs limiter s requests).map Prod.snd =
      answers (handled limiter) (s (.ok (ipBucket addr))) requests

/-- Whatever a client outside the trusted networks writes into its headers, it neither uses up
the limit of another client nor gets round its own. -/
theorem rate_limit_isolation {σ : Type} {jwtDecode : Option (String → Decoded)}
    {cidrs : List String} {networks : List IPNetwork} {addr : String}
    (hnetworks : parseTrustedNetworks cidrs = .ok networks) (haddr : Outsider networks addr)
    (users : List String) (limiter : Limiter σ) (s : Except ConfigurationError String → σ)
    (requests : List Request) :
    IsolationContract jwtDecode cidrs networks addr users limiter s requests where
  addresses _ := owns_ipBucket
  accounts _ := owns_userBucket
  unaffected bucket hforeign client hclient := by
    refine keyedAnswers_frame s requests fun request hrequest hbucket => hforeign ?_
    obtain ⟨hfrom, htoken⟩ := hclient request hrequest
    rw [bucket_of_sentFrom hnetworks haddr hfrom] at hbucket
    have hown := Except.ok.inj hbucket
    split at hown
    · rename_i userId huser
      exact .inr ⟨userId, htoken userId huser, hown.symm⟩
    · exact .inl hown.symm
  limited hrequests := by
    refine keyedAnswers_of_key s fun request hrequest => ?_
    obtain ⟨hfrom, htoken⟩ := hrequests request hrequest
    rw [bucket_of_sentFrom hnetworks haddr hfrom]
    split
    · rename_i userId huser
      cases htoken userId huser
    · rfl

def oneRequest : Limiter Nat := fun count _ =>
  (count + 1, if count = 0 then none else some "1 per 1 minute")

/-- A client that names another one in its header, and then that other one. -/
def spoofedRequests : List Request :=
  [⟨none, some "198.51.100.7", some "203.0.113.9", "/", 0⟩,
    ⟨some "Bearer x", some "198.51.100.7", some "203.0.113.9", "/", 1⟩,
    ⟨none, some "203.0.113.9, 198.51.100.7", some "10.0.0.1", "/", 2⟩]

theorem rate_limit_isolation_spoofed :
    IsolationContract none ["10.0.0.0/8"] [.ofQuad 10 0 0 0 8] "203.0.113.9" [] oneRequest
        (fun _ => 0) spoofedRequests ∧
      (serve none ["10.0.0.0/8"] oneRequest (fun _ => 0) spoofedRequests).map Prod.snd =
        [.passed, .exceeded 60, .passed] :=
  ⟨rate_limit_isolation (by decide) (by decide) [] oneRequest _ _, by decide +kernel⟩

end BackendProdReady.Security.RateLimiting
