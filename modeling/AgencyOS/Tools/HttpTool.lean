import AgencyOS.Python.Exceptions
import AgencyOS.Python.IpAddress

/-!
The tool that fetches a URL.

Each hop is validated before it is requested: the host is looked up, and every address must be
public.  The client looks the host up again when it connects.

* `isPublicIp`, `validatedUrl`, `fetch`, `run`: the tool;
* `Public`, `missed`: the public addresses, and those that the lists of the tool miss;
* `SsrfSafe`: what is promised of the requests;
* `Reaches`: the hops of a fetch, from what the servers and the resolver answer;
* `ssrfSafe_iff`: **the promise is kept exactly if on every hop each address that the client connects
  to was validated, or is public to the tool, and is not a missed one**;
* `not_ssrfSafe_rebound`: a host that is looked up twice.
-/

namespace Tools

open Python

/-! ### Public addresses -/

/-- `_BLOCKED_IPV4`. -/
def blockedIpv4 : List (Network 32) :=
  [⟨dotted 0 0 0 0, 8⟩, ⟨dotted 10 0 0 0, 8⟩, ⟨dotted 100 64 0 0, 10⟩, ⟨dotted 127 0 0 0, 8⟩,
    ⟨dotted 169 254 0 0, 16⟩, ⟨dotted 172 16 0 0, 12⟩, ⟨dotted 192 0 0 0, 24⟩,
    ⟨dotted 192 0 2 0, 24⟩, ⟨dotted 192 168 0 0, 16⟩, ⟨dotted 198 18 0 0, 15⟩,
    ⟨dotted 198 51 100 0, 24⟩, ⟨dotted 203 0 113 0, 24⟩, ⟨dotted 224 0 0 0, 4⟩,
    ⟨dotted 240 0 0 0, 4⟩, ⟨dotted 255 255 255 255, 32⟩]

/-- `_BLOCKED_IPV6`. -/
def blockedIpv6 : List (Network 128) :=
  [⟨groups [], 128⟩, ⟨groups [0, 0, 0, 0, 0, 0, 0, 1], 128⟩, ⟨groups [0xfc00], 7⟩,
    ⟨groups [0xfe80], 10⟩, ⟨groups [0xfec0], 10⟩, ⟨groups [0xff00], 8⟩,
    ⟨groups [0x2001, 0xdb8], 32⟩]

def inAny {w : ℕ} (networks : List (Network w)) (a : BitVec w) : Bool :=
  networks.any fun network => network.contains a

/-- `_is_public_ip`. -/
def isPublicIp : IpAddress → Bool
  | .v4 a => !inAny blockedIpv4 a
  | .v6 a =>
      match ipv4Mapped a with
      | some embedded => !inAny blockedIpv4 embedded
      | none => !inAny blockedIpv6 a

/-! ### The tool -/

/-- The parts of a URL that the tool looks at; the port may be no number. -/
structure SplitResult where
  scheme : String
  username : Option String
  password : Option String
  hostname : Option String
  port : Except Unit (Option ℕ)

/-- `urllib.parse`, and the `repr` of a text. -/
structure UrlLib where
  urlsplit : String → Option SplitResult
  urljoin : String → String → String
  repr : String → String

inductive FetchError where
  | valueError (message : String)
  | httpError (message : String)
  deriving DecidableEq, Repr

def FetchError.message : FetchError → String
  | valueError message => message
  | httpError message => message

structure Response where
  statusCode : ℕ
  location : Option String
  text : List Char
  deriving DecidableEq, Repr

/-- A request: the URL, and the addresses that it opened a connection to. -/
structure Request where
  url : String
  connected : List IpAddress
  deriving DecidableEq, Repr

/-- What a client does for `client.get(url)`: the addresses that it connects to, the requests that
it sends to follow redirects, and the response unless it raises. -/
structure Exchange where
  connected : List IpAddress
  followed : List Request
  response : Except String Response

/-- A client, and what it does on each hop of the fetch. -/
structure Client where
  followRedirects : Bool
  get : ℕ → String → Exchange
  followed_eq : followRedirects = false → ∀ hop url, (get hop url).followed = []

/-- What is around the tool: the client that it is given, the one that it makes itself, and the
answers of `getaddrinfo` to the lookup of each hop. -/
structure World where
  lib : UrlLib
  given : Client
  made : Client
  made_eq : made.followRedirects = false
  getaddrinfo : ℕ → String → ℕ → Option (List IpAddress)

def maxBytes : ℕ := 8000

def maxRedirects : ℕ := 5

def allowedPorts : List ℕ := [80, 443]

/-- The loop over the addresses of a host, with those that were `seen`. -/
def checkInfos (hostname : String) : List IpAddress → List IpAddress → Except FetchError Unit
  | _, [] => .ok ()
  | seen, ip :: infos =>
      if ip ∈ seen then checkInfos hostname seen infos
      else if isPublicIp ip = false then
        .error (.valueError ("host " ++ hostname ++ " resolves to a non-public address"))
      else checkInfos hostname (ip :: seen) infos

variable (world : World)

/-- The port of a URL, or the default one; port 0 counts as none. -/
def effectivePort (scheme : String) (port : Option ℕ) : ℕ :=
  match port with
  | none | some 0 => if scheme = "https" then 443 else 80
  | some port => port

/-- `_validated_url`, on the lookup of a hop. -/
def validatedUrl (hop : ℕ) (url : String) : Except FetchError String :=
  match world.lib.urlsplit url with
  | none => .error (.valueError "invalid URL")
  | some parsed =>
      if parsed.scheme ∉ ["http", "https"] then
        .error (.valueError ("only http/https URLs are allowed, got scheme "
          ++ world.lib.repr parsed.scheme))
      else if parsed.username ≠ none ∨ parsed.password ≠ none then
        .error (.valueError "URLs with embedded credentials are not allowed")
      else
        match parsed.hostname with
        | none | some "" => .error (.valueError "URL is missing a hostname")
        | some hostname =>
            match parsed.port with
            | .error _ => .error (.valueError "invalid port")
            | .ok port =>
                let port := effectivePort parsed.scheme port
                if port ∉ allowedPorts then
                  .error (.valueError ("port " ++ toString port ++ " is not allowed"))
                else
                  match world.getaddrinfo hop hostname port with
                  | none =>
                      .error (.valueError ("could not resolve host " ++ world.lib.repr hostname))
                  | some infos => (checkInfos (world.lib.repr hostname) [] infos).map fun _ => url

/-- The client of a fetch: a client that follows redirects is replaced. -/
def World.client : Client := if world.given.followRedirects then world.made else world.given

/-- The target of a redirect. -/
def redirectOf (response : Response) : Option String :=
  if response.statusCode ∈ [301, 302, 303, 307, 308] then response.location.filter (· ≠ "") else none

/-- The loop of `_fetch`, from a hop on: the requests that are sent, and the outcome. -/
def fetchLoop : ℕ → ℕ → String → List Request × Except FetchError (List Char × ℕ)
  | 0, _, _ =>
      ([], .error (.valueError ("too many redirects (" ++ toString maxRedirects ++ ")")))
  | hops + 1, hop, current =>
      let exchange := world.client.get hop current
      let sent := ⟨current, exchange.connected⟩ :: exchange.followed
      match exchange.response with
      | .error message => (sent, .error (.httpError message))
      | .ok response =>
          match redirectOf response with
          | none => (sent, .ok (response.text.take maxBytes, response.statusCode))
          | some location =>
              match validatedUrl world (hop + 1) (world.lib.urljoin current location) with
              | .error e => (sent, .error e)
              | .ok current =>
                  let (requests, outcome) := fetchLoop hops (hop + 1) current
                  (sent ++ requests, outcome)

/-- `_fetch`. -/
def fetch (url : String) : List Request × Except FetchError (List Char × ℕ) :=
  match validatedUrl world 0 url with
  | .error e => ([], .error e)
  | .ok current => fetchLoop world (maxRedirects + 1) 0 current

inductive ToolResult where
  | ok (status : ℕ) (text : List Char)
  | error (message : String)
  deriving DecidableEq, Repr

/-- `HttpGetTool.run`, with the requests that are sent. -/
def run (url : Option String) : List Request × ToolResult :=
  match url with
  | none | some "" => ([], .error "url is required")
  | some url =>
      let (requests, outcome) := fetch world url
      (requests, match outcome with
        | .ok (text, status) => .ok status text
        | .error e => .error e.message)

/-! ### What is promised of the requests -/

/-- The reserved networks of IPv6. -/
def reservedIpv6 : List (Network 128) :=
  [⟨groups [], 8⟩, ⟨groups [0x100], 8⟩, ⟨groups [0x200], 7⟩, ⟨groups [0x400], 6⟩,
    ⟨groups [0x800], 5⟩, ⟨groups [0x1000], 4⟩, ⟨groups [0x4000], 3⟩, ⟨groups [0x6000], 3⟩,
    ⟨groups [0x8000], 3⟩, ⟨groups [0xa000], 3⟩, ⟨groups [0xc000], 3⟩, ⟨groups [0xe000], 4⟩,
    ⟨groups [0xf000], 5⟩, ⟨groups [0xf800], 6⟩, ⟨groups [0xfe00], 9⟩]

/-- The address that a translated address carries. -/
def translated (a : BitVec 128) : Option (BitVec 32) := (sixToFour a).or (nat64 a)

/-- A public address: one that is not private, loopback, link-local, reserved or multicast, and
carries no address of these kinds. -/
def Public : IpAddress → Bool
  | .v4 a => !inAny blockedIpv4 a
  | .v6 a =>
      match (ipv4Mapped a).or (translated a) with
      | some embedded => !inAny blockedIpv4 embedded
      | none => !inAny (blockedIpv6 ++ reservedIpv6) a

/-- **The addresses that the lists miss**: those that carry an address that is not public for a
translator, and reserved ones. -/
def missed : IpAddress → Bool
  | .v4 _ => false
  | .v6 a =>
      match ipv4Mapped a, translated a with
      | some _, _ => false
      | none, some embedded => inAny blockedIpv4 embedded
      | none, none => inAny reservedIpv6 a

/-- **What is promised of the requests of a fetch**, in their order. -/
structure SsrfSafe (requests : List Request) : Prop where
  connects : ∀ request ∈ requests, ∀ ip ∈ request.connected, Public ip = true
  few : requests.length ≤ 6
  validated : ∀ hop request, requests[hop]? = some request →
    validatedUrl world hop request.url = .ok request.url

/-! ### The hops -/

/-- Where a hop is redirected to, if that passes the validation. -/
def nextHop (hop : ℕ) (url : String) : Option String :=
  match (world.client.get hop url).response with
  | .error _ => none
  | .ok response =>
      match redirectOf response with
      | none => none
      | some location => (validatedUrl world (hop + 1) (world.lib.urljoin url location)).toOption

/-- The servers lead from one hop to another. -/
inductive Reaches : ℕ → String → ℕ → String → Prop where
  | here {hop : ℕ} {url : String} : Reaches hop url hop url
  | next {hop hop' : ℕ} {url url' next : String} (hnext : nextHop world hop url = some next)
      (hrest : Reaches (hop + 1) next hop' url') : Reaches hop url hop' url'

/-- The hops of the tool on an input. -/
def Reached (input : Option String) (hop : ℕ) (url : String) : Prop :=
  ∃ first, input = some first ∧ first ≠ "" ∧ validatedUrl world 0 first = .ok first
    ∧ hop ≤ maxRedirects ∧ Reaches world 0 first hop url

/-- The answer to the lookup with which a URL is validated. -/
def validatedAddresses (hop : ℕ) (url : String) : List IpAddress :=
  match world.lib.urlsplit url with
  | none => []
  | some parsed =>
      match parsed.hostname, parsed.port with
      | some hostname, .ok port =>
          (world.getaddrinfo hop hostname (effectivePort parsed.scheme port)).getD []
      | _, _ => []

/-- **The condition** on the connections of a hop. -/
def Sound (hop : ℕ) (url : String) : Prop :=
  ∀ ip ∈ (world.client.get hop url).connected,
    (ip ∈ validatedAddresses world hop url ∨ isPublicIp ip = true) ∧ missed ip = false

/-! ### The addresses -/

lemma inAny_eq_false {w : ℕ} {n : Network w} {networks : List (Network w)} {a : BitVec w}
    (h : n.contains a) (hmeets : ∀ m ∈ networks, n.meets m = false) : inAny networks a = false := by
  rw [inAny, List.any_eq_false]
  intro m hm
  rw [Network.not_contains h (hmeets m hm)]
  exact Bool.false_ne_true

/-- The lists have no network of the translators. -/
lemma inAny_of_translated {a : BitVec 128} {embedded : BitVec 32} (h : translated a = some embedded) :
    inAny blockedIpv6 a = false := by
  rw [translated, sixToFour, nat64] at h
  by_cases hsix : sixToFourNetwork.contains a
  · exact inAny_eq_false hsix (by decide)
  · by_cases hnat : nat64Network.contains a
    · exact inAny_eq_false hnat (by decide)
    · rw [if_neg hsix, if_neg hnat] at h
      exact nomatch h

/-- **The public addresses are those that the tool takes for public, less the missed ones.** -/
lemma public_iff (ip : IpAddress) : Public ip = true ↔ isPublicIp ip = true ∧ missed ip = false := by
  cases ip with
  | v4 a => simp [Public, isPublicIp, missed]
  | v6 a =>
      rw [Public, isPublicIp, missed]
      cases hmapped : ipv4Mapped a with
      | some embedded => simp
      | none =>
          cases htranslated : translated a with
          | some embedded => simp [inAny_of_translated htranslated]
          | none => simp [inAny]

lemma checkInfos_eq_ok {hostname : String} {seen infos : List IpAddress}
    (h : checkInfos hostname seen infos = .ok ()) :
    ∀ ip ∈ infos, ip ∈ seen ∨ isPublicIp ip = true := by
  induction infos generalizing seen with
  | nil => exact fun ip hip => nomatch hip
  | cons first infos ih =>
      rw [checkInfos] at h
      intro ip hip
      split_ifs at h with hseen hpublic
      · rcases List.mem_cons.1 hip with rfl | hip
        · exact .inl hseen
        · exact ih h ip hip
      · rw [Bool.not_eq_false] at hpublic
        rcases List.mem_cons.1 hip with rfl | hip
        · exact .inr hpublic
        · rcases ih h ip hip with hmem | hpublic'
          · rcases List.mem_cons.1 hmem with rfl | hmem
            · exact .inr hpublic
            · exact .inl hmem
          · exact .inr hpublic'

variable {world} {hop : ℕ} {url next : String}

/-- A URL that passes is returned as it is, and its addresses are public to the tool. -/
lemma validatedUrl_ok (h : validatedUrl world hop url = .ok next) :
    next = url ∧ ∀ ip ∈ validatedAddresses world hop url, isPublicIp ip = true := by
  rw [validatedUrl] at h
  rw [validatedAddresses]
  cases hsplit : world.lib.urlsplit url with
  | none =>
      rw [hsplit] at h
      exact nomatch h
  | some parsed =>
      rw [hsplit] at h
      dsimp only at h ⊢
      by_cases hscheme : parsed.scheme ∉ ["http", "https"]
      · rw [if_pos hscheme] at h
        exact nomatch h
      by_cases hcredentials : parsed.username ≠ none ∨ parsed.password ≠ none
      · rw [if_neg hscheme, if_pos hcredentials] at h
        exact nomatch h
      rw [if_neg hscheme, if_neg hcredentials] at h
      split at h
      · exact nomatch h
      · exact nomatch h
      · next hostname hne hhostname =>
          cases hport : parsed.port with
          | error e =>
              rw [hport] at h
              exact nomatch h
          | ok port =>
              rw [hport] at h
              dsimp only at h
              split_ifs at h
              cases hlookup : world.getaddrinfo hop hostname (effectivePort parsed.scheme port) with
              | none =>
                  rw [hlookup] at h
                  exact nomatch h
              | some infos =>
                  rw [hlookup] at h
                  obtain ⟨⟨⟩, hcheck, rfl⟩ := map_eq_ok.1 h
                  refine ⟨rfl, fun ip hip => ?_⟩
                  rw [hhostname] at hip
                  dsimp only at hip
                  rw [hlookup, Option.getD_some] at hip
                  rcases checkInfos_eq_ok hcheck ip hip with hnil | hpublic
                  · exact nomatch hnil
                  · exact hpublic

/-- On a hop that is validated, the condition is that the connections are public. -/
lemma sound_iff (h : validatedUrl world hop url = .ok url) :
    Sound world hop url ↔ ∀ ip ∈ (world.client.get hop url).connected, Public ip = true := by
  have hpublic := (validatedUrl_ok h).2
  refine forall_congr' fun ip => imp_congr_right fun _ => ?_
  rw [public_iff]
  constructor
  · rintro ⟨hvalidated | htool, hmissed⟩
    · exact ⟨hpublic ip hvalidated, hmissed⟩
    · exact ⟨htool, hmissed⟩
  · rintro ⟨htool, hmissed⟩
    exact ⟨.inr htool, hmissed⟩

/-! ### The requests -/

lemma client_followRedirects (world : World) : world.client.followRedirects = false := by
  rw [World.client]
  split_ifs with hgiven
  · exact world.made_eq
  · simpa using hgiven

/-- The request of a hop. -/
def requestOf (world : World) (hop : ℕ) (url : String) : Request :=
  ⟨url, (world.client.get hop url).connected⟩

lemma nextHop_validated (h : nextHop world hop url = some next) :
    validatedUrl world (hop + 1) next = .ok next := by
  rw [nextHop] at h
  split at h
  · exact nomatch h
  · split at h
    · exact nomatch h
    · next location _ =>
        cases hvalid : validatedUrl world (hop + 1) (world.lib.urljoin url location) with
        | error e =>
            rw [hvalid] at h
            exact nomatch h
        | ok found =>
            rw [hvalid] at h
            cases h
            obtain ⟨rfl, -⟩ := validatedUrl_ok hvalid
            exact hvalid

/-- One hop: its request, and the requests of the hops after it. -/
lemma fetchLoop_requests (hops hop : ℕ) (url : String) :
    (fetchLoop world (hops + 1) hop url).1 = requestOf world hop url ::
      ((nextHop world hop url).map fun next => (fetchLoop world hops (hop + 1) next).1).getD [] := by
  have hfollowed : (world.client.get hop url).followed = [] :=
    world.client.followed_eq (client_followRedirects world) hop url
  rw [fetchLoop, nextHop]
  dsimp only
  rw [hfollowed]
  cases (world.client.get hop url).response with
  | error message => rfl
  | ok response =>
      dsimp only
      cases redirectOf response with
      | none => rfl
      | some location =>
          dsimp only
          cases validatedUrl world (hop + 1) (world.lib.urljoin url location) with
          | error e => rfl
          | ok next => rfl

lemma length_fetchLoop (hops hop : ℕ) (url : String) : (fetchLoop world hops hop url).1.length ≤ hops := by
  induction hops generalizing hop url with
  | zero => exact le_rfl
  | succ hops ih =>
      rw [fetchLoop_requests, List.length_cons]
      cases nextHop world hop url with
      | none => exact Nat.succ_le_succ (Nat.zero_le _)
      | some next => exact Nat.succ_le_succ (ih (hop + 1) next)

lemma Reaches.le {hop' : ℕ} {url' : String} (h : Reaches world hop url hop' url') : hop ≤ hop' := by
  induction h with
  | here => exact le_rfl
  | next _ _ ih => omega

/-- The first step of a way to a later hop. -/
lemma reaches_succ_iff {k : ℕ} {url' : String} :
    Reaches world hop url (hop + (k + 1)) url' ↔
      ∃ next, nextHop world hop url = some next ∧ Reaches world (hop + 1) next (hop + 1 + k) url' := by
  have hsum : hop + (k + 1) = hop + 1 + k := by omega
  constructor
  · intro h
    rw [hsum] at h
    generalize htarget : hop + 1 + k = target at h
    cases h with
    | here => omega
    | next hnext hrest => exact ⟨_, hnext, hrest⟩
  · rintro ⟨next, hnext, hrest⟩
    rw [hsum]
    exact .next hnext hrest

/-- **The requests are those of the hops, in their order.** -/
lemma getElem?_fetchLoop (hops hop k : ℕ) (url : String) (request : Request) :
    (fetchLoop world hops hop url).1[k]? = some request ↔
      k < hops ∧ ∃ url', Reaches world hop url (hop + k) url' ∧ request = requestOf world (hop + k) url' := by
  induction hops generalizing hop url k with
  | zero => simp [fetchLoop]
  | succ hops ih =>
      rw [fetchLoop_requests]
      cases k with
      | zero =>
          rw [List.getElem?_cons_zero, Option.some_inj, Nat.add_zero]
          constructor
          · rintro rfl
            exact ⟨Nat.succ_pos _, url, .here, rfl⟩
          · rintro ⟨-, url', hreaches, rfl⟩
            cases hreaches with
            | here => rfl
            | next _ hrest =>
                have := hrest.le
                omega
      | succ k =>
          rw [List.getElem?_cons_succ]
          simp only [reaches_succ_iff]
          have hsum : hop + (k + 1) = hop + 1 + k := by omega
          cases hnext : nextHop world hop url with
          | none => simp
          | some next =>
              rw [Option.map_some, Option.getD_some, ih, hsum]
              simp

lemma reaches_validated {hop' : ℕ} {url' : String} (h : Reaches world hop url hop' url')
    (hvalid : validatedUrl world hop url = .ok url) : validatedUrl world hop' url' = .ok url' := by
  induction h with
  | here => exact hvalid
  | next hnext _ ih => exact ih (nextHop_validated hnext)

/-- The requests of the tool are those of the hops that it reaches. -/
lemma getElem?_run (input : Option String) (hop : ℕ) (request : Request) :
    (run world input).1[hop]? = some request ↔
      ∃ url, Reached world input hop url ∧ request = requestOf world hop url := by
  rw [run.eq_def]
  split
  · simp [Reached]
  · simp [Reached]
  · next first hfirst =>
      dsimp only
      rw [fetch]
      cases hvalid : validatedUrl world 0 first with
      | error e =>
          simp [Reached, hvalid]
      | ok current =>
          obtain ⟨rfl, -⟩ := validatedUrl_ok hvalid
          dsimp only
          rw [getElem?_fetchLoop, Nat.zero_add]
          constructor
          · rintro ⟨hlt, url, hreaches, rfl⟩
            exact ⟨url, ⟨current, rfl, hfirst, hvalid, Nat.lt_succ_iff.1 hlt, hreaches⟩, rfl⟩
          · rintro ⟨url, ⟨first, hinput, -, -, hle, hreaches⟩, rfl⟩
            cases hinput
            exact ⟨Nat.lt_succ_iff.2 hle, url, hreaches, rfl⟩

lemma Reached.validated {input : Option String} (h : Reached world input hop url) :
    validatedUrl world hop url = .ok url := by
  obtain ⟨first, -, -, hvalid, -, hreaches⟩ := h
  exact reaches_validated hreaches hvalid

lemma length_run (input : Option String) : (run world input).1.length ≤ 6 := by
  rw [run.eq_def]
  split
  · exact Nat.zero_le _
  · exact Nat.zero_le _
  · dsimp only
    rw [fetch]
    split
    · exact Nat.zero_le _
    · exact length_fetchLoop _ _ _

/-- **The requests are safe exactly if the connections of every hop are sound.** -/
theorem ssrfSafe_iff (world : World) (input : Option String) :
    SsrfSafe world (run world input).1 ↔ ∀ hop url, Reached world input hop url → Sound world hop url := by
  constructor
  · intro hsafe hop url hreached
    rw [sound_iff hreached.validated]
    have hrequest := (getElem?_run input hop _).2 ⟨url, hreached, rfl⟩
    exact hsafe.connects _ (List.mem_of_getElem? hrequest)
  · intro hsound
    refine ⟨fun request hrequest => ?_, length_run input, fun hop request hrequest => ?_⟩
    · obtain ⟨hop, hhop⟩ := List.mem_iff_getElem?.1 hrequest
      obtain ⟨url, hreached, rfl⟩ := (getElem?_run input hop request).1 hhop
      exact (sound_iff hreached.validated).1 (hsound hop url hreached)
    · obtain ⟨url, hreached, rfl⟩ := (getElem?_run input hop request).1 hrequest
      exact hreached.validated

/-! ### A host that is looked up twice -/

def loopback : IpAddress := .v4 (dotted 127 0 0 1)

def reboundClient : Client where
  followRedirects := false
  get _ _ := ⟨[loopback], [], .ok ⟨200, none, []⟩⟩
  followed_eq _ _ _ := rfl

/-- A name that is public when it is validated, and stands for the machine itself when the client
looks it up. -/
def rebound : World where
  lib :=
    { urlsplit _ := some ⟨"http", none, none, some "rebind.example", .ok none⟩
      urljoin _ location := location
      repr text := "'" ++ text ++ "'" }
  given := reboundClient
  made := reboundClient
  made_eq := rfl
  getaddrinfo _ _ _ := some [.v4 (dotted 93 184 216 34)]

theorem not_ssrfSafe_rebound :
    ¬ SsrfSafe rebound (run rebound (some "http://rebind.example/")).1 := by
  intro h
  have hrequests : (run rebound (some "http://rebind.example/")).1
      = [⟨"http://rebind.example/", [loopback]⟩] := by
    decide +kernel
  have hpublic := h.connects _ (hrequests ▸ List.mem_singleton_self _) loopback
    (List.mem_singleton_self _)
  revert hpublic
  decide

/-- A translated address of the machine itself is missed by the lists. -/
example : isPublicIp (.v6 (groups [0x64, 0xff9b, 0, 0, 0, 0, 0x7f00, 1])) = true
    ∧ Public (.v6 (groups [0x64, 0xff9b, 0, 0, 0, 0, 0x7f00, 1])) = false := by decide

end Tools
