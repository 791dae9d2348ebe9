import TransportNats.Object.Store

/-!
The servers of a transport and their validation for production.

`WithURLs` takes a list of server URLs and keeps them as one text, joined by
commas, which the client library splits again. `ValidateProduction` looks at the
beginning of this text, and so at the first URL only.
-/

namespace TransportNats.Server

/-! ### URLs -/

def comma : UInt8 := 44

/-- `strings.HasPrefix`. -/
def hasPrefix (s p : Bytes) : Bool := p.isPrefixOf s

def joinNATSURLs : List Bytes → Bytes
  | [] => []
  | first :: rest => first ++ rest.flatMap fun u => comma :: u

/-- A `ProductionSecurity`: paths of files. -/
structure ProductionSecurity where
  credentialsFile : String
  rootCAFile : String
  clientCertFile : String := ""
  clientKeyFile : String := ""

/-- The fields of a transport that are read here. Of the validating function only
what it returns matters. -/
structure Transport where
  url : Bytes
  embedded : Bool
  productionSecurity : Option ProductionSecurity
  productionValidator : Option (Option Err)

/-- `WithURLs`. -/
def Transport.withURLs (t : Transport) (primary : Bytes) (extra : List Bytes) : Transport :=
  { t with url := joinNATSURLs (primary :: extra) }

/-! ### Validation -/

/-- The files as validation sees them: whether a path is a directory, what it
contains, and whether that has a certificate in it. -/
structure Files where
  stat : String → Except Err Bool
  readFile : String → Except Err Bytes
  appendCertsFromPEM : Bytes → Bool

def validateFile (W : Files) (label path : String) : Option Err :=
  if path = "" then some (.other ("NATS " ++ label ++ " path is required") none)
  else
    match W.stat path with
    | .error err => some (.wrap ("NATS " ++ label ++ " file") none err)
    | .ok isDir =>
        if isDir then
          some (.other ("NATS " ++ label ++ " file " ++ Object.quote (bytesOf path) ++
            " is a directory") none)
        else none

def validateProductionFiles (W : Files) (sec : ProductionSecurity) : Option Err :=
  match validateFile W "credentials" sec.credentialsFile with
  | some err => some err
  | none =>
      match validateFile W "root CA" sec.rootCAFile with
      | some err => some err
      | none =>
          if sec.clientCertFile ≠ "" ∨ sec.clientKeyFile ≠ "" then
            match validateFile W "client cert" sec.clientCertFile with
            | some err => some err
            | none => validateFile W "client key" sec.clientKeyFile
          else none

def validateRootCA (W : Files) (path : String) : Option Err :=
  match W.readFile path with
  | .error err => some (.wrap "read NATS root CA file" none err)
  | .ok rootPEM =>
      if W.appendCertsFromPEM rootPEM then none
      else some (.other ("parse NATS root CA file " ++ Object.quote (bytesOf path)) none)

/-- The scheme of a URL that production accepts. -/
def hasScheme (url : Bytes) : Bool :=
  hasPrefix url (bytesOf "tls://") || hasPrefix url (bytesOf "nats://")

/-- The part of `ValidateProduction` that does not look at the URL. -/
def validateSecurity (W : Files) (t : Transport) : Option Err :=
  match t.productionSecurity, t.productionValidator with
  | none, none =>
      some (.other ("NATS production security is required; configure " ++
        "tnats.WithProductionSecurity or tnats.WithProductionValidation") none)
  | none, some result => result
  | some sec, validator =>
      if sec.credentialsFile = "" then
        some (.other "NATS credentials file is required in production" none)
      else if sec.rootCAFile = "" then
        some (.other "NATS root CA file is required in production" none)
      else
        match validateProductionFiles W sec with
        | some err => some err
        | none =>
            match validateRootCA W sec.rootCAFile with
            | some err => some err
            | none => validator.getD none

def validateProduction (W : Files) (t : Transport) : Option Err :=
  if t.url = [] then some (.other "NATS URL is required in production" none)
  else if !hasPrefix t.url (bytesOf "tls://") && !hasPrefix t.url (bytesOf "nats://") then
    some (.other "NATS URL must use nats:// or tls:// scheme" none)
  else validateSecurity W t

/-! ### The beginning of the joined text -/

/-- What has no comma in it is a prefix of the joined text where it is one of the
first URL. -/
theorem isPrefixOf_append_comma {p : Bytes} (hp : comma ∉ p) (first rest : Bytes) :
    p.isPrefixOf (first ++ comma :: rest) = p.isPrefixOf first := by
  induction p generalizing first with
  | nil => simp
  | cons c p ih =>
      obtain ⟨hc, hp⟩ := not_or.mp (mt List.mem_cons.mpr hp)
      cases first with
      | nil => simp [List.isPrefixOf, Ne.symm hc]
      | cons d first => simp [List.isPrefixOf, ih hp]

theorem hasPrefix_joinNATSURLs {p : Bytes} (hp : comma ∉ p) (primary : Bytes)
    (extra : List Bytes) : hasPrefix (joinNATSURLs (primary :: extra)) p = hasPrefix primary p := by
  cases extra with
  | nil => simp [joinNATSURLs]
  | cons u extra => exact isPrefixOf_append_comma hp primary _

theorem hasScheme_joinNATSURLs (primary : Bytes) (extra : List Bytes) :
    hasScheme (joinNATSURLs (primary :: extra)) = hasScheme primary := by
  unfold hasScheme
  rw [hasPrefix_joinNATSURLs (by decide), hasPrefix_joinNATSURLs (by decide)]

theorem validateProduction_eq_none {W : Files} {t : Transport} :
    validateProduction W t = none ↔ hasScheme t.url ∧ validateSecurity W t = none := by
  unfold validateProduction
  rw [← Bool.not_or]
  change (if t.url = [] then _ else if !hasScheme t.url then _ else _) = none ↔ _
  by_cases hscheme : hasScheme t.url
  · have hne : t.url ≠ [] := by
      intro hnil
      rw [hnil] at hscheme
      exact absurd hscheme (by decide)
    simp [hne, hscheme]
  · split <;> simp [hscheme]

/-! ### Which lists are validated -/

/-- Whatever the security settings and the files are, production is accepted only
if every URL of the list has one of the two schemes. -/
def ValidatesEvery (primary : Bytes) (extra : List Bytes) : Prop :=
  ∀ (W : Files) (t : Transport), validateProduction W (t.withURLs primary extra) = none →
    ∀ url ∈ primary :: extra, hasScheme url

/-- Every path is a readable file with a certificate in it. -/
def intactFiles : Files := ⟨fun _ => .ok false, fun _ => .ok [], fun _ => true⟩

def securedTransport : Transport := ⟨[], false, some ⟨"svc.creds", "ca.pem", "", ""⟩, none⟩

/-- Every URL is validated exactly if those behind an acceptable first one are
acceptable themselves. -/
theorem validatesEvery_iff (primary : Bytes) (extra : List Bytes) :
    ValidatesEvery primary extra ↔ (hasScheme primary → ∀ url ∈ extra, hasScheme url) := by
  constructor
  · intro h hprimary url hurl
    have hjoined : hasScheme (joinNATSURLs (primary :: extra)) := by
      rwa [hasScheme_joinNATSURLs]
    have hok : validateProduction intactFiles (securedTransport.withURLs primary extra) = none :=
      validateProduction_eq_none.mpr ⟨hjoined, rfl⟩
    exact h _ _ hok url (List.mem_cons_of_mem _ hurl)
  · intro h W t hok url hurl
    have hprimary : hasScheme primary := by
      rw [← hasScheme_joinNATSURLs primary extra]
      exact (validateProduction_eq_none.mp hok).1
    rcases List.mem_cons.mp hurl with rfl | hurl
    · exact hprimary
    · exact h hprimary url hurl

/-! ### A server over another scheme -/

/-- A second server over plain HTTP is accepted in production; alone it is not. -/
theorem httpServer_accepted :
    validateProduction intactFiles
        (securedTransport.withURLs (bytesOf "tls://n1:4222") [bytesOf "http://n2:4222"]) = none ∧
      hasScheme (bytesOf "http://n2:4222") = false ∧
      (validateProduction intactFiles
        (securedTransport.withURLs (bytesOf "http://n2:4222") [])).isSome ∧
      ¬ ValidatesEvery (bytesOf "tls://n1:4222") [bytesOf "http://n2:4222"] := by
  have hok : validateProduction intactFiles
      (securedTransport.withURLs (bytesOf "tls://n1:4222") [bytesOf "http://n2:4222"]) = none := by
    decide
  have hplain : hasScheme (bytesOf "http://n2:4222") = false := by decide
  refine ⟨hok, hplain, by decide, fun h => ?_⟩
  have hscheme := h intactFiles securedTransport hok _ (List.mem_cons_of_mem _ List.mem_cons_self)
  rw [hplain] at hscheme
  cases hscheme

end TransportNats.Server
