import GaussMatrix.Library.IpText
import GaussMatrix.Library.Outcome

namespace GaussMatrix.Resolver

open IpText Outcome

inductive FedDest where
  | literal (ip : Ip) (port : Nat)
  | named (host port : Text)
deriving DecidableEq

def defaultPort : Text := ":8448".toList

-- What does not fit an ArrayString<16> becomes the default port.
def portString (port : Text) : Text := if (port.map Char.utf8Size).sum ≤ 16 then port else defaultPort

def getIpWithPort (dest : Text) : Option FedDest :=
  match parseSocket dest with
  | some (ip, port) => some (.literal ip port)
  | none => (parseIp dest).map fun ip => .literal ip 8448

def splitPort (dest : Text) : Option (Text × Text) := if ':' ∈ dest then some (dest.span (· ≠ ':')) else none

def addPortToHostname (dest : Text) : FedDest :=
  match splitPort dest with
  | none => .named dest defaultPort
  | some (host, port) => .named host (portString port)

def FedDest.uriString : FedDest → Text
  | .literal ip port => showSocket ip port
  | .named host port => host ++ port

def FedDest.httpsString (dest : FedDest) : Text := "https://".toList ++ dest.uriString

def FedDest.hostname : FedDest → Text
  | .literal (.v4 bits) _ => showV4 bits
  | .literal (.v6 bits) _ => showV6 bits
  | .named host _ => host

def parseU16 (text : Text) : Option Nat := parsePort (if text.head? = some '+' then text.tail else text)

def FedDest.port : FedDest → Option Nat
  | .literal _ port => some port
  | .named _ port => parseU16 port.tail

inductive Host where
  | domain (name : Text)
  | ipv4 (bits : BitVec 32)
  | ipv6 (bits : BitVec 128)
deriving DecidableEq

def Host.hostStr : Host → Text
  | .domain name => name
  | .ipv4 bits => showV4 bits
  | .ipv6 bits => "[".toList ++ showV6 bits ++ "]".toList

structure Url where
  host : Option Host
deriving DecidableEq

structure Libraries where
  validServerName : Text → Bool
  isIpLiteral : Text → Bool
  parseUrl : Text → Except String Url

structure Config where
  name : Text
  allowFederation : Bool
  federationLoopback : Bool
  isForbidden : Text → Bool
  denylist : List Cidr

inductive NetError where
  | dns
  | timeout (text : String)
  | noConnections (text : String)
  | other (text : String)

structure WellKnown where
  success : Bool
  text : Except String (Nat × Option Text)

structure Network where
  running : Bool
  hasOverride : Text → Bool
  lookupIp : Text → Except NetError Unit
  srvLookup : Text → Except NetError (Option (Text × Nat))
  wellKnown : Text → Option WellKnown

def Network.checkRunning (network : Network) : Except String Unit :=
  if network.running then .ok () else .error "Server shutting down"

def handleResolveError : NetError → Except String Unit
  | .dns => .ok ()
  | .timeout text => .error ("DNS " ++ text)
  | .noConnections text => .error ("DNS error: " ++ text)
  | .other text => .error ("DNS error: " ++ text)

section

variable (libraries : Libraries) (config : Config) (network : Network)

def validCidrRange (ip : Ip) : Bool := config.denylist.all fun cidr => !cidr.includes ip

def validateIp (ip : Ip) : Except String Unit :=
  if validCidrRange config ip then .ok () else .error "Not allowed to send requests to this IP"

-- ServerName::host keeps the brackets of an IPv6 address.
def hostOf (name : Text) : Text := if ']' ∈ name then name.takeWhile (· ≠ ']') ++ [']'] else name.takeWhile (· ≠ ':')

def validateDestIpLiteral (dest : Text) : Except String Unit :=
  match parseIp (hostOf dest) with
  | none => .error "Failed to parse IP literal from string"
  | some ip => validateIp config ip

def validateDest (dest : Text) : Except String Unit :=
  if dest = config.name ∧ !config.federationLoopback then .error "Won't send federation request to ourselves"
  else if libraries.isIpLiteral dest || (parseIp (hostOf dest)).isSome then validateDestIpLiteral config dest
  else .ok ()

def requestWellKnown (dest : Text) : Except String (Option Text) :=
  match network.wellKnown dest with
  | none => .ok none
  | some response =>
    if !response.success then .ok none
    else
      response.text.map fun body =>
        if 12288 ≤ body.1 then none
        else
          let server := body.2.getD []
          if libraries.validServerName server then some server else none

def queryAndCacheOverride (hostname : Text) : Except String Unit := do
  network.checkRunning
  match network.lookupIp hostname with
  | .error e => handleResolveError e
  | .ok _ => .ok ()

def conditionalQueryAndCacheOverride (untername hostname : Text) (cache : Bool) : Except String Unit :=
  if !cache then .ok () else if network.hasOverride untername then .ok () else queryAndCacheOverride network hostname

def conditionalQueryAndCache (hostname : Text) (cache : Bool) : Except String Unit :=
  conditionalQueryAndCacheOverride network hostname hostname cache

def trimEndDots (text : Text) : Text := text.rdropWhile (· = '.')

def querySrvRecords : List Text → Except String (Option FedDest)
  | [] => .ok none
  | hostname :: rest => do
    network.checkRunning
    match network.srvLookup (trimEndDots hostname) with
    | .error e => do
      handleResolveError e
      querySrvRecords rest
    | .ok srv => .ok (srv.map fun srv => .named (trimEndDots srv.1) (portString (':' :: Nat.toDigits 10 srv.2)))

def querySrvRecord (hostname : Text) : Except String (Option FedDest) :=
  querySrvRecords network ["_matrix-fed._tcp.".toList ++ hostname ++ ".".toList, "_matrix._tcp.".toList ++
    hostname ++ ".".toList]

def actualDest1 (hostPort : FedDest) : Except String FedDest := .ok hostPort

def hostnameWithPort (cache : Bool) (split : Text × Text) : Except String FedDest := do
  conditionalQueryAndCache network split.1 cache
  return .named split.1 (portString split.2)

def actualDest2 (cache : Bool) (split : Text × Text) : Except String FedDest := hostnameWithPort network cache split

def actualDest3_1 (hostAndPort : FedDest) : Except String FedDest := .ok hostAndPort

section

variable (cache : Bool)

def actualDest3_2 (split : Text × Text) : Except String FedDest := hostnameWithPort network cache split

def overridden (host : Text) (overrider : FedDest) : Except String FedDest := do
  conditionalQueryAndCacheOverride network host overrider.hostname cache
  match overrider.port with
  | some port => return .named host (portString (':' :: Nat.toDigits 10 port))
  | none => return addPortToHostname host

def actualDest3_3 (delegated : Text) (overrider : FedDest) : Except String FedDest :=
  overridden network cache delegated overrider

def hostnameAlone (host : Text) : Except String FedDest := do
  conditionalQueryAndCache network host cache
  return addPortToHostname host

def actualDest3_4 (delegated : Text) : Except String FedDest := hostnameAlone network cache delegated

def actualDest3 (delegated : Text) : Except String FedDest :=
  match getIpWithPort delegated with
  | some hostAndPort => actualDest3_1 hostAndPort
  | none =>
    match splitPort delegated with
    | some split => actualDest3_2 network cache split
    | none => do
      match ← querySrvRecord network delegated with
      | some overrider => actualDest3_3 network cache delegated overrider
      | none => actualDest3_4 network cache delegated

def actualDest4 (host : Text) (overrider : FedDest) : Except String FedDest := overridden network cache host overrider

def actualDest5 (dest : Text) : Except String FedDest := hostnameAlone network cache dest

def chooseDest (dest : Text) : Except String (FedDest × Text) :=
  match getIpWithPort dest with
  | some hostPort => do return (← actualDest1 hostPort, dest)
  | none =>
    match splitPort dest with
    | some split => do return (← actualDest2 network cache split, dest)
    | none => do
      conditionalQueryAndCache network dest true
      network.checkRunning
      match ← requestWellKnown libraries network dest with
      | some delegated => return (← actualDest3 network cache delegated, (addPortToHostname delegated).uriString)
      | none =>
        match ← querySrvRecord network dest with
        | some overrider => return (← actualDest4 network cache dest overrider, dest)
        | none => return (← actualDest5 network cache dest, dest)

end

structure ActualDest where
  dest : FedDest
  host : Text

def hostHeader (host : Text) : FedDest :=
  match parseSocket host with
  | some (ip, port) => .literal ip port
  | none =>
    match parseIp host with
    | some (.v4 bits) => .named (showV4 bits) defaultPort
    | some (.v6 bits) => .named (showV6 bits) defaultPort
    | none => addPortToHostname host

def resolveActualDest (dest : Text) (cache : Bool) : Except String ActualDest := do
  validateDest libraries config dest
  let chosen ← chooseDest libraries network cache dest
  return { dest := chosen.1, host := (hostHeader chosen.2).uriString }

def getActualDest (cached : Option ActualDest) (dest : Text) : Except String ActualDest :=
  match cached with
  | some actual => .ok actual
  | none => resolveActualDest libraries config network dest true

def validateUrl (url : Url) : Except String Unit :=
  match url.host.bind fun host => parseIp host.hostStr with
  | some ip => validateIp config ip
  | none => .ok ()

def prepare (actual : ActualDest) (path : Text) : Except String Url := do
  let url ← libraries.parseUrl (actual.dest.httpsString ++ path)
  validateUrl config url
  network.checkRunning
  return url

def executeOn (cached : Option ActualDest) (dest path : Text) : Except String Url :=
  if !config.allowFederation then .error "Federation is disabled."
  else if config.isForbidden dest then .error ("Federation with " ++ String.ofList dest ++ " is not allowed.")
  else do
    let actual ← getActualDest libraries config network cached dest
    prepare libraries config network actual path

end

def Denied (denylist : List Cidr) (ip : Ip) : Prop := ∃ cidr ∈ denylist, cidr.includes ip

instance (denylist : List Cidr) (ip : Ip) : Decidable (Denied denylist ip) :=
  inferInstanceAs (Decidable (∃ cidr ∈ denylist, cidr.includes ip))

variable {ip : Ip} {path : Text} {url : Url} {bits : BitVec 32}

section

variable {libraries : Libraries} {config : Config} {network : Network}

theorem valid_cidr_range_iff : validCidrRange config ip = true ↔ ¬ Denied config.denylist ip := by
  simp [validCidrRange, Denied]

theorem validate_ip_denied (denied : Denied config.denylist ip) :
    validateIp config ip = .error "Not allowed to send requests to this IP" :=
  if_neg fun valid => valid_cidr_range_iff.mp valid denied

theorem validate_ip_ok : validateIp config ip = .ok () ↔ ¬ Denied config.denylist ip := by
  constructor
  · intro passed denied
    rw [validate_ip_denied denied] at passed
    cases passed
  · exact fun outside => if_pos (valid_cidr_range_iff.mpr outside)

theorem validate_url_v4 : validateUrl config ⟨some (.ipv4 bits)⟩ = validateIp config (.v4 bits) := by
  simp [validateUrl, Host.hostStr, parse_show_ip_v4]

theorem prepare_ok {actual : ActualDest} : prepare libraries config network actual path = .ok url ↔
      libraries.parseUrl (actual.dest.httpsString ++ path) = .ok url ∧ validateUrl config url = .ok () ∧ network.checkRunning = .ok () := by
  constructor
  · intro prepared
    obtain ⟨parsed, read, later⟩ := bind_ok prepared
    obtain ⟨⟨⟩, valid, last⟩ := bind_ok later
    obtain ⟨⟨⟩, running, same⟩ := bind_ok last
    cases same
    exact ⟨read, valid, running⟩
  · rintro ⟨read, valid, running⟩
    simp [prepare, read, valid, running, bind, Except.bind, pure, Except.pure]

theorem execute_on_ok {cached : Option ActualDest} {dest : Text} :
    executeOn libraries config network cached dest path = .ok url ↔
      config.allowFederation ∧ config.isForbidden dest = false ∧
        ∃ actual, getActualDest libraries config network cached dest = .ok actual ∧ prepare libraries config network actual path = .ok url := by
  constructor
  · intro executed
    obtain ⟨allowed, later⟩ := ite_ok executed
    obtain ⟨permitted, resolved⟩ := ite_ok later
    exact ⟨by simpa using allowed, by simpa using permitted, bind_ok resolved⟩
  · rintro ⟨allowed, permitted, actual, resolved, prepared⟩
    simp [executeOn, allowed, permitted, resolved, prepared, bind, Except.bind]

end

def hostIp : Ip → Host
  | .v4 bits => .ipv4 bits
  | .v6 bits => .ipv6 bits

-- The name is looked up in a well-known file, and what that delegates to is an address.
def Delegates (libraries : Libraries) (network : Network) (dest : Text) (target : FedDest) : Prop :=
  getIpWithPort dest = none ∧ splitPort dest = none ∧
    ∃ delegated, requestWellKnown libraries network dest = .ok (some delegated) ∧ getIpWithPort delegated = some target

-- What is asked of the URL and server name parsers and of the resolver: addresses are read as such, brackets are those
-- of
-- an IPv6 address, which has colons, and a name with a bracket in it cannot be looked up.
structure Faithful (libraries : Libraries) (network : Network) (dest path : Text) : Prop where
  literal : ∀ bits port, getIpWithPort dest = some (.literal (.v6 bits) port) →
    libraries.isIpLiteral dest = true ∧ ']' ∈ dest
  bracketed : ∀ name, name = dest ∨ requestWellKnown libraries network dest = .ok (some name) → '[' ∈ name → ':' ∈ name
  literalUrl : ∀ ip port, getIpWithPort dest = some (.literal ip port) ∨
    Delegates libraries network dest (.literal ip port) →
    ∀ url, libraries.parseUrl ((FedDest.literal ip port).httpsString ++ path) = .ok url → url.host = some (hostIp ip)
  namedUrl : ∀ host port, port.head? = some ':' →
    ∀ url bits, libraries.parseUrl ((FedDest.named host port).httpsString ++ path) = .ok url →
    url.host = some (.ipv6 bits) → '[' ∈ host
  lookup : ∀ host, '[' ∈ host → network.hasOverride host = false ∧
    ∃ error, queryAndCacheOverride network host = .error error

section

variable {libraries : Libraries} {network : Network} {dest path : Text}

theorem port_string_head {port : Text} (colon : port.head? = some ':') : (portString port).head? = some ':' := by
  rw [portString]
  split
  · exact colon
  · rfl

theorem drop_to_colon (colon : ':' ∈ dest) : (dest.dropWhile (· ≠ ':')).head? = some ':' := by
  induction dest with
  | nil => cases colon
  | cons c rest ih =>
    by_cases own : c = ':'
    · simp [own]
    · rw [List.dropWhile_cons_of_pos (by simpa using own)]
      exact ih ((List.mem_cons.mp colon).resolve_left (Ne.symm own))

theorem split_port_head {split : Text × Text} (held : splitPort dest = some split) : split.2.head? = some ':' := by
  obtain ⟨colon, same⟩ := Option.ite_none_right_eq_some.mp held
  cases same
  rw [List.span_eq_takeWhile_dropWhile]
  exact drop_to_colon colon

theorem split_port_none (whole : splitPort dest = none) : ':' ∉ dest := by
  simpa [splitPort] using whole

-- A destination that is a name has no bracket in it, and a port with its colon.
def Named (target : FedDest) : Prop := ∃ host port, target = .named host port ∧ '[' ∉ host ∧ port.head? = some ':'

theorem queried_plain (faithful : Faithful libraries network dest path) {host : Text}
    (queried : conditionalQueryAndCache network host true = .ok ()) : '[' ∉ host := by
  intro bracket
  obtain ⟨missing, error, failed⟩ := faithful.lookup host bracket
  rw [conditionalQueryAndCache, conditionalQueryAndCacheOverride, missing, failed] at queried
  cases queried

theorem hostname_with_port_named (faithful : Faithful libraries network dest path) {split : Text × Text} {name : Text}
    {target : FedDest} (held : splitPort name = some split)
    (chosen : hostnameWithPort network true split = .ok target) : Named target := by
  obtain ⟨_, queried, last⟩ := bind_ok chosen
  cases last
  exact ⟨_, _, rfl, queried_plain faithful queried, port_string_head (split_port_head held)⟩

theorem hostname_alone_named {host : Text} {target : FedDest} (plain : '[' ∉ host) (whole : splitPort host = none)
    (chosen : hostnameAlone network true host = .ok target) : Named target := by
  obtain ⟨_, _, last⟩ := bind_ok chosen
  cases last
  rw [addPortToHostname, whole]
  exact ⟨_, _, rfl, plain, rfl⟩

theorem overridden_named {host : Text} {target overrider : FedDest} (plain : '[' ∉ host) (whole : splitPort host = none)
    (chosen : overridden network true host overrider = .ok target) : Named target := by
  obtain ⟨_, _, last⟩ := bind_ok chosen
  cases port : overrider.port with
  | none =>
    rw [port] at last
    cases last
    rw [addPortToHostname, whole]
    exact ⟨_, _, rfl, plain, rfl⟩
  | some number =>
    rw [port] at last
    cases last
    exact ⟨_, _, rfl, plain, port_string_head rfl⟩

theorem delegated_dest (faithful : Faithful libraries network dest path) {delegated : Text} {target : FedDest}
    (known : requestWellKnown libraries network dest = .ok (some delegated))
    (chosen : actualDest3 network true delegated = .ok target) :
    getIpWithPort delegated = some target ∨ getIpWithPort delegated = none ∧ Named target := by
  rw [actualDest3] at chosen
  cases literal : getIpWithPort delegated with
  | some found =>
    rw [literal] at chosen
    cases chosen
    exact .inl rfl
  | none =>
    rw [literal] at chosen
    refine .inr ⟨rfl, ?_⟩
    cases whole : splitPort delegated with
    | some split =>
      rw [whole] at chosen
      exact hostname_with_port_named faithful whole chosen
    | none =>
      rw [whole] at chosen
      have plain : '[' ∉ delegated := fun bracket => split_port_none whole (faithful.bracketed delegated (.inr known) bracket)
      obtain ⟨record, _, last⟩ := bind_ok chosen
      cases record with
      | some overrider => exact overridden_named plain whole last
      | none => exact hostname_alone_named plain whole last

theorem chosen_dest (faithful : Faithful libraries network dest path) {chosen : FedDest × Text}
    (resolved : chooseDest libraries network true dest = .ok chosen) :
    getIpWithPort dest = some chosen.1 ∨ getIpWithPort dest = none ∧
      (Delegates libraries network dest chosen.1 ∨ (∀ target, ¬ Delegates libraries network dest target) ∧ Named chosen.1) := by
  rw [chooseDest] at resolved
  cases literal : getIpWithPort dest with
  | some found =>
    rw [literal] at resolved
    obtain ⟨target, same, last⟩ := bind_ok resolved
    cases same
    cases last
    exact .inl rfl
  | none =>
    rw [literal] at resolved
    refine .inr ⟨rfl, ?_⟩
    cases whole : splitPort dest with
    | some split =>
      rw [whole] at resolved
      obtain ⟨target, done, last⟩ := bind_ok resolved
      cases last
      refine .inr ⟨fun target delegates => ?_, hostname_with_port_named faithful whole done⟩
      cases whole.symm.trans delegates.2.1
    | none =>
      rw [whole] at resolved
      have plain : '[' ∉ dest := fun bracket => split_port_none whole (faithful.bracketed dest (.inl rfl) bracket)
      obtain ⟨_, _, later⟩ := bind_ok resolved
      obtain ⟨_, _, later⟩ := bind_ok later
      obtain ⟨answer, known, later⟩ := bind_ok later
      cases answer with
      | some delegated =>
        obtain ⟨target, done, last⟩ := bind_ok later
        cases last
        rcases delegated_dest faithful known done with found | ⟨absent, named⟩
        · exact .inl ⟨literal, whole, delegated, known, found⟩
        · refine .inr ⟨fun target delegates => ?_, named⟩
          obtain ⟨_, _, other, knownToo, found⟩ := delegates
          cases known.symm.trans knownToo
          cases absent.symm.trans found
      | none =>
        have nowhere : ∀ target, ¬ Delegates libraries network dest target := by
          rintro target ⟨_, _, other, knownToo, _⟩
          cases known.symm.trans knownToo
        refine .inr ⟨nowhere, ?_⟩
        obtain ⟨record, _, later⟩ := bind_ok later
        cases record with
        | some overrider =>
          obtain ⟨target, done, last⟩ := bind_ok later
          cases last
          exact overridden_named plain whole done
        | none =>
          obtain ⟨target, done, last⟩ := bind_ok later
          cases last
          exact hostname_alone_named plain whole done

theorem get_ip_literal {target : FedDest} (found : getIpWithPort dest = some target) :
    ∃ ip port, target = .literal ip port := by
  rw [getIpWithPort] at found
  split at found
  next ip port read => exact ⟨ip, port, (Option.some.inj found).symm⟩
  next =>
    obtain ⟨ip, _, same⟩ := Option.map_eq_some_iff.mp found
    exact ⟨ip, 8448, same.symm⟩

theorem delegates_unique {target other : FedDest} (delegates : Delegates libraries network dest target)
    (too : Delegates libraries network dest other) : target = other := by
  obtain ⟨_, _, delegated, known, found⟩ := delegates
  obtain ⟨_, _, again, knownToo, foundToo⟩ := too
  cases known.symm.trans knownToo
  exact Option.some.inj (found.symm.trans foundToo)

theorem bracketed_refused {config : Config} (literal : libraries.isIpLiteral dest = true) (bracket : ']' ∈ dest) :
    validateDest libraries config dest ≠ .ok () := by
  have refused : parseIp (hostOf dest) = none := by
    rw [hostOf, if_pos bracket]
    exact bracket_refused (List.mem_append_right _ List.mem_cons_self)
  intro allowed
  have checked := (ite_ok allowed).2
  rw [literal, Bool.true_or, if_pos rfl, validateDestIpLiteral, refused] at checked
  cases checked

theorem ipv6_host_iff {config : Config} (faithful : Faithful libraries network dest path)
    {actual : ActualDest} {url : Url} (resolved : resolveActualDest libraries config network dest true = .ok actual)
    (read : libraries.parseUrl (actual.dest.httpsString ++ path) = .ok url) (bits : BitVec 128) :
    url.host = some (.ipv6 bits) ↔ ∃ port, Delegates libraries network dest (.literal (.v6 bits) port) := by
  obtain ⟨⟨⟩, allowed, later⟩ := bind_ok resolved
  obtain ⟨chosen, choice, last⟩ := bind_ok later
  cases last
  dsimp only at read
  rcases chosen_dest faithful choice with own | ⟨absent, delegates | ⟨nowhere, host, port, named, plain, colon⟩⟩
  · obtain ⟨ip, port, literal⟩ := get_ip_literal own
    rw [literal] at own read
    have host := faithful.literalUrl ip port (.inl own) url read
    refine iff_of_false (fun isV6 => ?_) fun ⟨_, delegates⟩ => absurd (delegates.1.symm.trans own) (by simp)
    cases ip with
    | v4 other => cases host.symm.trans isV6
    | v6 other =>
      obtain ⟨isLiteral, bracket⟩ := faithful.literal other port own
      exact bracketed_refused isLiteral bracket allowed
  · obtain ⟨ip, port, literal⟩ := get_ip_literal delegates.2.2.choose_spec.2
    rw [literal] at delegates read
    have host := faithful.literalUrl ip port (.inr delegates) url read
    rw [host]
    constructor
    · intro isV6
      cases ip with
      | v4 other => cases isV6
      | v6 other =>
        cases isV6
        exact ⟨port, delegates⟩
    · rintro ⟨other, too⟩
      cases delegates_unique delegates too
      rfl
  · rw [named] at read
    exact iff_of_false (fun isV6 => plain (faithful.namedUrl host port colon url bits read isV6)) fun ⟨port, delegates⟩ => nowhere _ delegates

end

def plainName (name : Text) : Bool :=
  let host := hostOf name
  let port := name.drop host.length
  (if name.head? = some '[' then (parseV6 (host.drop 1).dropLast).isSome else host.all fun c =>
    c.isAlphanum || c = '-' || c = '.') &&
    !name.isEmpty && (port.isEmpty || (port.head? = some ':' && (parseU16 port.tail).isSome))

def plainUrl (text : Text) : Except String Url :=
  let authority := (text.drop 8).takeWhile fun c => c ≠ '/' ∧ c ≠ '?' ∧ c ≠ '#'
  if text.take 8 ≠ "https://".toList then .error "relative URL without a base"
  else if authority.head? = some '[' then
    match parseV6 (authority.tail.takeWhile (· ≠ ']')) with
    | some bits => .ok { host := some (.ipv6 bits) }
    | none => .error "invalid IPv6 address"
  else
    let host := authority.takeWhile (· ≠ ':')
    .ok { host := some (match parseV4 host with | some bits => .ipv4 bits | none => .domain host) }

def plainLibraries : Libraries where
  validServerName := plainName
  isIpLiteral := fun name => name.head? = some '[' || (parseIp name).isSome
  parseUrl := plainUrl

def loopbackDenied : Config where
  name := "matrix.example".toList
  allowFederation := true
  federationLoopback := false
  isForbidden := fun _ => false
  denylist := [.v4 0x7f000000 8, .v6 1 128]

def delegating (server : String) : Network where
  running := true
  hasOverride := fun _ => false
  lookupIp := fun host => .error (if '[' ∈ host then .other "proto error" else .dns)
  srvLookup := fun _ => .error .dns
  wellKnown := fun _ => some { success := true, text := .ok (64, some server.toList) }

def relay : Text := "relay.example".toList

def version : Text := "/_matrix/federation/v1/version".toList

def sendTo (server : String) : Except String Url :=
  executeOn plainLibraries loopbackDenied (delegating server) none relay version

theorem plain_url_bracket {host port path : Text} (colon : port.head? = some ':') {url : Url} {bits : BitVec 128}
    (read : plainUrl ((FedDest.named host port).httpsString ++ path) = .ok url)
    (literal : url.host = some (.ipv6 bits)) : '[' ∈ host := by
  have rest : ((FedDest.named host port).httpsString ++ path).drop 8 = host ++ port ++ path := rfl
  rw [plainUrl] at read
  dsimp only at read
  rw [rest] at read
  have later := (ite_ok read).2
  split at later
  next bracket =>
    cases host with
    | nil =>
      obtain ⟨c, port⟩ := port
      · cases colon
      · cases colon
        simp at bracket
    | cons c host =>
      rw [List.cons_append, List.cons_append, List.takeWhile_cons] at bracket
      split at bracket
      · cases bracket
        exact List.mem_cons_self
      · cases bracket
  next =>
    cases later
    dsimp only at literal
    split at literal <;> cases literal

theorem delegating_faithful {server : String} {ip : Ip} {port : Nat}
    (found : getIpWithPort server.toList = some (.literal ip port)) (known : requestWellKnown plainLibraries
    (delegating server) relay = .ok (some server.toList))
    (bracketed : '[' ∈ server.toList → ':' ∈ server.toList) (host : plainUrl ((FedDest.literal ip port).httpsString ++
    version) = .ok ⟨some (hostIp ip)⟩) : Faithful plainLibraries (delegating server) relay version where
  literal := fun bits port own => absurd (own.symm.trans (by decide +kernel : getIpWithPort relay = none)) (by simp)
  bracketed := by
    rintro name (rfl | held) bracket
    · exact absurd bracket (by decide)
    · cases known.symm.trans held
      exact bracketed bracket
  literalUrl := by
    rintro other number (own | delegates) url read
    · exact absurd (own.symm.trans (by decide +kernel : getIpWithPort relay = none)) (by simp)
    · cases delegates_unique delegates ⟨by decide +kernel, by decide +kernel, _, known, found⟩
      cases host.symm.trans read
      rfl
  namedUrl := fun host port colon url bits read literal => plain_url_bracket colon read literal
  lookup := fun host bracket =>
    ⟨rfl, "DNS error: proto error", by simp [queryAndCacheOverride, delegating, bracket]; rfl⟩

end GaussMatrix.Resolver
