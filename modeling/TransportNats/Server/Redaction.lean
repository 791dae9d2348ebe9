import Mathlib.Data.List.Forall2
import TransportNats.Library.Splitting
import TransportNats.Server.Urls

/-!
Passwords in the text of a transport.

A transport prints itself with its URL, and `sanitizeURL` is to keep passwords
out of that. It reads the URL with package `net/url`, which knows one authority
in a text and masks the password in it; a text that the package cannot read is
printed as it is. But the URL of a transport may be a list of URLs, of which
`net/url` sees the first one.
-/

namespace TransportNats.Server

open Splitting

/-! ### The password of the first authority -/

def slash : UInt8 := 47

def colon : UInt8 := 58

def atSign : UInt8 := 64

def isLetter (c : UInt8) : Bool := (97 ≤ c && c ≤ 122) || (65 ≤ c && c ≤ 90)

/-- A byte that may stand in a scheme: a letter, a digit, `+`, `-` or `.`. -/
def isSchemeByte (c : UInt8) : Bool :=
  isLetter c || (48 ≤ c && c ≤ 57) || c = 43 || c = 45 || c = 46

/-- A byte that does not end an authority, as `/`, `?` and `#` do. -/
def inAuthority (c : UInt8) : Bool := c ≠ slash && c ≠ 63 && c ≠ 35

def doubleSlash : Bytes := [slash, slash]

/-- The text up to the authority, which is a scheme with `://` or only `//`, and
the text from there on. -/
def introduction (raw : Bytes) : Option (Bytes × Bytes) :=
  if hasPrefix raw doubleSlash then some (doubleSlash, raw.drop 2)
  else
    let scheme := raw.takeWhile isSchemeByte
    let rest := raw.dropWhile isSchemeByte
    if (scheme.head?.any isLetter) && hasPrefix rest (colon :: doubleSlash) then
      some (scheme ++ colon :: doubleSlash, rest.drop 3)
    else none

/-- What stands before, in and after the password of the first authority of a
text, if there is one: the authority goes up to the first byte that ends it, its
user information up to the last `@`, the user name up to the first colon. -/
def passwordPart (raw : Bytes) : Option (Bytes × Bytes × Bytes) := do
  let (intro, rest) ← introduction raw
  let (userinfo, host) ← splitLast atSign (rest.takeWhile inAuthority)
  let (user, password) ← splitFirst colon userinfo
  return (intro ++ user ++ [colon], password,
    atSign :: host ++ rest.dropWhile inAuthority)

def mask : Bytes := bytesOf "xxxxx"

/-- `url.Parse` and `URL.Redacted` of a text that can be parsed. Only the password is
replaced here; that `URL.String` also writes the other parts anew, escaping them in its own
way, is left out. -/
def redacted (raw : Bytes) : Bytes :=
  match passwordPart raw with
  | none => raw
  | some (before, _, after) => before ++ mask ++ after

/-- `sanitizeURL`; `parses` says which texts `url.Parse` accepts. -/
def sanitizeURL (parses : Bytes → Bool) (rawURL : Bytes) : Bytes :=
  if parses rawURL then redacted rawURL else rawURL

/-- `Transport.String`. -/
def Transport.string (parses : Bytes → Bool) (t : Transport) : Bytes :=
  if t.embedded then bytesOf "nats(embedded)"
  else bytesOf "nats(" ++ sanitizeURL parses t.url ++ bytesOf ")"

/-! ### Introductions -/

/-- A scheme with `://`, or `//`. -/
def IsIntroduction (intro : Bytes) : Prop :=
  intro = doubleSlash ∨
    ∃ scheme, scheme.head?.any isLetter ∧ (∀ c ∈ scheme, isSchemeByte c) ∧
      intro = scheme ++ colon :: doubleSlash

theorem IsIntroduction.comma_notMem {intro : Bytes} (h : IsIntroduction intro) :
    comma ∉ intro := by
  rcases h with rfl | ⟨scheme, -, hall, rfl⟩
  · decide
  · intro hmem
    rcases List.mem_append.mp hmem with hmem | hmem
    · exact absurd (hall _ hmem) (by decide)
    · exact absurd hmem (by decide)

/-- An introduction ends in a slash. -/
theorem IsIntroduction.exists_slash {intro : Bytes} (h : IsIntroduction intro) :
    ∃ start, intro = start ++ [slash] := by
  rcases h with rfl | ⟨scheme, -, -, rfl⟩
  · exact ⟨[slash], rfl⟩
  · exact ⟨scheme ++ [colon, slash], by simp [doubleSlash]⟩

theorem hasPrefix_iff {s p : Bytes} : hasPrefix s p ↔ ∃ t, s = p ++ t := by
  rw [hasPrefix, List.isPrefixOf_iff_prefix]
  constructor
  · rintro ⟨t, ht⟩
    exact ⟨t, ht.symm⟩
  · rintro ⟨t, ht⟩
    exact ⟨t, ht.symm⟩

theorem introduction_doubleSlash (rest : Bytes) :
    introduction (doubleSlash ++ rest) = some (doubleSlash, rest) := by
  rw [introduction, if_pos (hasPrefix_iff.mpr ⟨rest, rfl⟩)]
  rfl

theorem introduction_scheme {scheme : Bytes} (hletter : scheme.head?.any isLetter)
    (hall : ∀ c ∈ scheme, isSchemeByte c) (rest : Bytes) :
    introduction (scheme ++ colon :: doubleSlash ++ rest) =
      some (scheme ++ colon :: doubleSlash, rest) := by
  have hslash : ¬ hasPrefix (scheme ++ colon :: doubleSlash ++ rest) doubleSlash := by
    rw [hasPrefix_iff]
    rintro ⟨t, ht⟩
    cases scheme with
    | nil => cases hletter
    | cons c scheme =>
        obtain ⟨rfl, -⟩ := List.cons.inj ht
        have hslash : isLetter slash := hletter
        exact absurd hslash (by decide)
  have hstops : Stops isSchemeByte (colon :: (doubleSlash ++ rest)) := by
    intro c r h
    obtain ⟨rfl, -⟩ := List.cons.inj h
    decide
  obtain ⟨htake, hdrop⟩ := span_append hall hstops
  have hcond : hasPrefix (colon :: (doubleSlash ++ rest)) (colon :: doubleSlash) :=
    hasPrefix_iff.mpr ⟨rest, rfl⟩
  rw [introduction, if_neg hslash, List.append_assoc, List.cons_append, htake, hdrop]
  simp only [hletter, hcond, Bool.and_self, if_true]
  rfl

theorem introduction_eq_some {raw intro rest : Bytes} :
    introduction raw = some (intro, rest) ↔ IsIntroduction intro ∧ raw = intro ++ rest := by
  constructor
  · intro h
    unfold introduction at h
    split at h
    · rename_i hpre
      obtain ⟨t, rfl⟩ := hasPrefix_iff.mp hpre
      cases h
      exact ⟨.inl rfl, rfl⟩
    · dsimp only at h
      split at h
      · rename_i hcond
        obtain ⟨hletter, hpre⟩ := Bool.and_eq_true_iff.mp hcond
        obtain ⟨t, ht⟩ := hasPrefix_iff.mp hpre
        cases h
        refine ⟨.inr ⟨_, hletter, fun c hc => List.mem_takeWhile_imp hc, rfl⟩, ?_⟩
        conv_lhs => rw [← List.takeWhile_append_dropWhile (p := isSchemeByte) (l := raw), ht]
        simp [ht, doubleSlash]
      · cases h
  · rintro ⟨rfl | ⟨scheme, hletter, hall, rfl⟩, rfl⟩
    · exact introduction_doubleSlash rest
    · exact introduction_scheme hletter hall rest

/-! ### The parts of a text -/

/-- The text is `before ++ password ++ after` with the password of its first
authority in the middle. -/
structure Parts (raw before password after : Bytes) : Prop where
  raw_eq : raw = before ++ password ++ after
  password_mem : ∀ c ∈ password, inAuthority c
  before_eq : ∃ intro user, IsIntroduction intro ∧ (∀ c ∈ user, inAuthority c) ∧
    colon ∉ user ∧ before = intro ++ user ++ [colon]
  after_eq : ∃ host tail, (∀ c ∈ host, inAuthority c) ∧ atSign ∉ host ∧
    Stops inAuthority tail ∧ after = atSign :: host ++ tail

theorem passwordPart_eq_some {raw before password after : Bytes} :
    passwordPart raw = some (before, password, after) ↔ Parts raw before password after := by
  constructor
  · intro h
    simp only [passwordPart, Option.bind_eq_bind, Option.bind_eq_some_iff, Option.pure_def,
      Option.some.injEq, Prod.mk.injEq, Prod.exists] at h
    obtain ⟨intro, rest, hintro, userinfo, host, hlast, user, password', hfirst, rfl, rfl, rfl⟩ := h
    obtain ⟨hin, rfl⟩ := introduction_eq_some.mp hintro
    obtain ⟨hauth, hhost⟩ := splitLast_eq_some.mp hlast
    obtain ⟨rfl, huser⟩ := splitFirst_eq_some.mp hfirst
    have hall : ∀ c ∈ (user ++ colon :: password') ++ atSign :: host, inAuthority c := by
      intro c hc
      rw [← hauth] at hc
      exact List.mem_takeWhile_imp hc
    refine ⟨?_, fun c hc => hall c (by simp [hc]),
      ⟨intro, user, hin, fun c hc => hall c (by simp [hc]), huser, rfl⟩,
      ⟨host, _, fun c hc => hall c (by simp [hc]), hhost, stops_dropWhile _ _, rfl⟩⟩
    conv_lhs => rw [← List.takeWhile_append_dropWhile (p := inAuthority) (l := rest), hauth]
    simp
  · rintro ⟨rfl, hpass, ⟨intro, user, hin, huser, hcolon, rfl⟩,
      ⟨host, tail, hhost, hat, hstops, rfl⟩⟩
    have hall : ∀ c ∈ (user ++ colon :: password) ++ atSign :: host, inAuthority c := by
      intro c hc
      simp only [List.mem_append, List.mem_cons] at hc
      rcases hc with (hc | rfl | hc) | rfl | hc
      · exact huser c hc
      · decide
      · exact hpass c hc
      · decide
      · exact hhost c hc
    obtain ⟨htake, hdrop⟩ := span_append hall hstops
    have hraw : intro ++ user ++ [colon] ++ password ++ (atSign :: host ++ tail) =
        intro ++ ((user ++ colon :: password) ++ atSign :: host ++ tail) := by simp
    have hintro := introduction_eq_some.mpr ⟨hin, hraw⟩
    simp only [passwordPart, hintro, Option.bind_eq_bind, Option.bind_some, htake, hdrop,
      splitLast_eq_some.mpr ⟨rfl, hat⟩, splitFirst_eq_some.mpr ⟨rfl, hcolon⟩, Option.pure_def]

namespace Parts

variable {raw before password after : Bytes}

/-- Another password in the place of the one that is there. -/
theorem change (h : Parts raw before password after) {q : Bytes}
    (hq : ∀ c ∈ q, inAuthority c) : Parts (before ++ q ++ after) before q after :=
  ⟨rfl, hq, h.before_eq, h.after_eq⟩

/-- With more text behind it, the part that is masked may get longer, by the same
bytes whatever the password is. -/
theorem append (h : Parts raw before password after) (more : Bytes) :
    ∃ x y, ∀ q : Bytes, (∀ c ∈ q, inAuthority c) →
      Parts (before ++ q ++ after ++ more) before (q ++ x) y := by
  obtain ⟨host, tail, hhost, hat, -, rfl⟩ := h.after_eq
  have hmem : atSign ∈ (atSign :: host ++ tail ++ more).takeWhile inAuthority := by
    rw [List.cons_append, List.cons_append, List.takeWhile_cons_of_pos (by decide)]
    exact List.mem_cons_self
  obtain ⟨x, host', hauth, hat'⟩ := exists_splitLast hmem
  have hall : ∀ c ∈ x ++ atSign :: host', inAuthority c := by
    intro c hc
    rw [← hauth] at hc
    exact List.mem_takeWhile_imp hc
  have hsplit := List.takeWhile_append_dropWhile (p := inAuthority)
    (l := atSign :: host ++ tail ++ more)
  rw [hauth] at hsplit
  refine ⟨x, atSign :: host' ++ (atSign :: host ++ tail ++ more).dropWhile inAuthority,
    fun q hq => ⟨?_, ?_, h.before_eq, ⟨host', _, ?_, hat', stops_dropWhile _ _, rfl⟩⟩⟩
  · calc before ++ q ++ (atSign :: host ++ tail) ++ more
        = before ++ q ++ (atSign :: host ++ tail ++ more) := by simp
      _ = before ++ q ++ (x ++ atSign :: host' ++
            (atSign :: host ++ tail ++ more).dropWhile inAuthority) := by rw [hsplit]
      _ = _ := by simp
  · intro c hc
    rcases List.mem_append.mp hc with hc | hc
    · exact hq c hc
    · exact hall c (by simp [hc])
  · exact fun c hc => hall c (by simp [hc])

/-- The authority that is read ends before the first slash behind a comma. -/
theorem suffix_after {z x w : Bytes}
    (h : Parts (z ++ comma :: x ++ slash :: w) before password after) :
    slash :: w <:+ after := by
  obtain ⟨intro, user, hin, huser, -, rfl⟩ := h.before_eq
  obtain ⟨host, tail, hhost, -, -, rfl⟩ := h.after_eq
  have hraw : intro ++ (user ++ colon :: password ++ atSign :: host ++ tail) =
      z ++ comma :: (x ++ slash :: w) := by
    simpa using h.raw_eq.symm
  obtain ⟨r, hr⟩ := suffix_of_append_eq hraw hin.comma_notMem
  have hslash : slash ∉ user ++ colon :: password ++ atSign :: host := by
    intro hmem
    simp only [List.mem_append, List.mem_cons] at hmem
    rcases hmem with (hmem | hmem | hmem) | hmem | hmem
    · exact absurd (huser _ hmem) (by decide)
    · exact absurd hmem (by decide)
    · exact absurd (h.password_mem _ hmem) (by decide)
    · exact absurd hmem (by decide)
    · exact absurd (hhost _ hmem) (by decide)
  have htail : (user ++ colon :: password ++ atSign :: host) ++ tail =
      (r ++ comma :: x) ++ slash :: w := by
    simpa using hr.symm
  exact (suffix_of_append_eq htail hslash).trans (List.suffix_append _ _)

theorem redacted_eq (h : Parts raw before password after) :
    redacted raw = before ++ mask ++ after := by
  rw [redacted, passwordPart_eq_some.mpr h]

/-- The password stands behind a slash. -/
theorem exists_slash (h : Parts raw before password after) :
    ∃ start user, before = start ++ slash :: user := by
  obtain ⟨intro, user, hin, -, -, rfl⟩ := h.before_eq
  obtain ⟨start, rfl⟩ := hin.exists_slash
  exact ⟨start, user ++ [colon], by simp⟩

end Parts

/-- What follows a comma and a slash is printed as it is. -/
theorem suffix_sanitizeURL (parses : Bytes → Bool) (z x w : Bytes) :
    slash :: w <:+ sanitizeURL parses (z ++ comma :: x ++ slash :: w) := by
  have hraw : slash :: w <:+ z ++ comma :: x ++ slash :: w := List.suffix_append _ _
  unfold sanitizeURL
  split
  · cases hpart : passwordPart (z ++ comma :: x ++ slash :: w) with
    | none =>
        rw [redacted, hpart]
        exact hraw
    | some part =>
        obtain ⟨before, password, after⟩ := part
        have hparts := passwordPart_eq_some.mp hpart
        rw [hparts.redacted_eq]
        exact hparts.suffix_after.trans (List.suffix_append _ _)
  · exact hraw

/-! ### Two runs -/

/-- The second URL is the first one, but for its password. -/
def SameButPassword (u v : Bytes) : Prop :=
  v = u ∨ ∃ before p q after, Parts u before p after ∧ Parts v before q after

/-- Changing the passwords in the list of URLs does not change the text of the
transport. -/
def HidesPasswords (parses : Bytes → Bool) (t : Transport) (primary : Bytes)
    (extra : List Bytes) : Prop :=
  ∀ primary' extra', List.Forall₂ SameButPassword (primary :: extra) (primary' :: extra') →
    (t.withURLs primary' extra').string parses = (t.withURLs primary extra).string parses

theorem SameButPassword.eq_of_none {u v : Bytes} (h : SameButPassword u v)
    (hu : passwordPart u = none) : v = u := by
  rcases h with rfl | ⟨before, p, q, after, hp, -⟩
  · rfl
  · rw [passwordPart_eq_some.mpr hp] at hu
    cases hu

/-- Redaction of a list does not depend on the password of its first URL. -/
theorem SameButPassword.redacted_eq {u v : Bytes} (h : SameButPassword u v)
    (extra : List Bytes) :
    redacted (joinNATSURLs (v :: extra)) = redacted (joinNATSURLs (u :: extra)) := by
  rcases h with rfl | ⟨before, p, q, after, hp, hq⟩
  · rfl
  · obtain ⟨x, y, hparts⟩ := hp.append (extra.flatMap fun u => comma :: u)
    rw [joinNATSURLs, joinNATSURLs, hp.raw_eq, hq.raw_eq,
      (hparts p hp.password_mem).redacted_eq, (hparts q hq.password_mem).redacted_eq]

theorem SameButPassword.refl (u : Bytes) : SameButPassword u u := .inl rfl

/-- The URLs that are the same but for the password are those with another
password in its place. -/
theorem SameButPassword.parts {u v before p after : Bytes} (h : SameButPassword u v)
    (hu : Parts u before p after) : ∃ q, Parts v before q after := by
  rcases h with rfl | ⟨before', p', q, after', hp, hq⟩
  · exact ⟨p, hu⟩
  · have heq := (passwordPart_eq_some.mpr hp).symm.trans (passwordPart_eq_some.mpr hu)
    cases heq
    exact ⟨q, hq⟩

theorem Parts.sameButPassword {u v before p q after : Bytes} (hu : Parts u before p after)
    (hv : Parts v before q after) : SameButPassword u v :=
  .inr ⟨before, p, q, after, hu, hv⟩

/-! ### Later URLs -/

theorem forall₂_replace {l₁ l₂ : List Bytes} {u v : Bytes} (h : SameButPassword u v) :
    List.Forall₂ SameButPassword (l₁ ++ u :: l₂) (l₁ ++ v :: l₂) := by
  have hrefl : ∀ l : List Bytes, List.Forall₂ SameButPassword l l :=
    fun l => List.forall₂_same.mpr fun u _ => .refl u
  exact List.rel_append (hrefl l₁) (.cons h (hrefl l₂))

/-- The password of a later URL is printed. -/
theorem suffix_of_later (parses : Bytes → Bool) (primary : Bytes) (l₁ l₂ : List Bytes)
    {u before p after : Bytes} (hu : Parts u before p after) :
    ∃ user rest, ∀ q, user ++ q ++ rest <:+
      sanitizeURL parses (joinNATSURLs (primary :: (l₁ ++ (before ++ q ++ after) :: l₂))) := by
  obtain ⟨start, user, hbefore⟩ := hu.exists_slash
  refine ⟨slash :: user, after ++ l₂.flatMap (fun u => comma :: u), fun q => ?_⟩
  have hshown := suffix_sanitizeURL parses (primary ++ l₁.flatMap fun u => comma :: u) start
    (user ++ q ++ (after ++ l₂.flatMap fun u => comma :: u))
  simpa [joinNATSURLs, hbefore] using hshown

/-- Two passwords of a later URL that have the same length can be told apart. -/
theorem sanitizeURL_ne_of_later (parses : Bytes → Bool) (primary : Bytes)
    (l₁ l₂ : List Bytes) {u before p after : Bytes} (hu : Parts u before p after) :
    sanitizeURL parses (joinNATSURLs (primary :: (l₁ ++ (before ++ [97] ++ after) :: l₂))) ≠
      sanitizeURL parses (joinNATSURLs (primary :: (l₁ ++ (before ++ [98] ++ after) :: l₂))) := by
  intro heq
  obtain ⟨user, rest, hsuffix⟩ := suffix_of_later parses primary l₁ l₂ hu
  have ha := hsuffix [97]
  have hb := hsuffix [98]
  rw [← heq] at hb
  have hsame := (List.suffix_of_suffix_length_le ha hb (by simp)).eq_of_length (by simp)
  simp at hsame

/-! ### The first URL -/

/-- `url.Parse` accepts the text, or there is nothing for it to hide there. -/
def Covered (parses : Bytes → Bool) (raw : Bytes) : Prop :=
  ∀ before password after, Parts raw before password after → password ≠ mask → parses raw

theorem Covered.sanitizeURL_eq {parses : Bytes → Bool} {raw : Bytes}
    (h : Covered parses raw) : sanitizeURL parses raw = redacted raw := by
  by_cases hparses : parses raw
  · rw [sanitizeURL, if_pos hparses]
  · rw [sanitizeURL, if_neg hparses]
    cases hpart : passwordPart raw with
    | none => rw [redacted, hpart]
    | some part =>
        obtain ⟨before, password, after⟩ := part
        have hparts := passwordPart_eq_some.mp hpart
        have hmask : password = mask := by
          by_contra hne
          exact hparses (h before password after hparts hne)
        rw [hparts.redacted_eq, ← hmask]
        exact hparts.raw_eq

/-- A text that `url.Parse` refuses shows its password: a longer password gives
another text. -/
theorem sanitizeURL_ne_of_refused {parses : Bytes → Bool} {raw raw' before p after : Bytes}
    (hraw : Parts raw before p after) (hraw' : Parts raw' before (97 :: p) after)
    (hmask : p ≠ mask) (hrefused : ¬ parses raw) :
    sanitizeURL parses raw' ≠ sanitizeURL parses raw := by
  intro heq
  rw [sanitizeURL, sanitizeURL, if_neg hrefused, hraw'.redacted_eq, hraw'.raw_eq,
    hraw.raw_eq] at heq
  split at heq
  · have hp : mask = p := by simpa using heq
    exact hmask hp.symm
  · simp at heq

theorem string_withURLs {parses : Bytes → Bool} {t : Transport} (ht : ¬ t.embedded)
    (primary : Bytes) (extra : List Bytes) :
    (t.withURLs primary extra).string parses =
      bytesOf "nats(" ++ sanitizeURL parses (joinNATSURLs (primary :: extra)) ++
        bytesOf ")" := by
  rw [Transport.string, if_neg (by exact ht)]
  rfl

theorem HidesPasswords.sanitizeURL_eq {parses : Bytes → Bool} {t : Transport}
    {primary : Bytes} {extra : List Bytes} (h : HidesPasswords parses t primary extra)
    (ht : ¬ t.embedded) {primary' : Bytes} {extra' : List Bytes}
    (hsame : List.Forall₂ SameButPassword (primary :: extra) (primary' :: extra')) :
    sanitizeURL parses (joinNATSURLs (primary' :: extra')) =
      sanitizeURL parses (joinNATSURLs (primary :: extra)) := by
  have heq := h primary' extra' hsame
  rw [string_withURLs ht, string_withURLs ht] at heq
  exact List.append_cancel_left (List.append_cancel_right heq)

/-- Passwords stay hidden only where no URL behind the first one has any. -/
theorem HidesPasswords.later {parses : Bytes → Bool} {t : Transport} {primary : Bytes}
    {extra : List Bytes} (h : HidesPasswords parses t primary extra) (ht : ¬ t.embedded) :
    ∀ u ∈ extra, passwordPart u = none := by
  intro u hu
  cases hpart : passwordPart u with
  | none => rfl
  | some part =>
      obtain ⟨before, p, after⟩ := part
      have hparts := passwordPart_eq_some.mp hpart
      obtain ⟨l₁, l₂, rfl⟩ := List.append_of_mem hu
      have hall : ∀ q : Bytes, (∀ c ∈ q, inAuthority c) → sanitizeURL parses
          (joinNATSURLs (primary :: (l₁ ++ (before ++ q ++ after) :: l₂))) =
          sanitizeURL parses (joinNATSURLs (primary :: (l₁ ++ u :: l₂))) := by
        intro q hq
        have hsame := hparts.sameButPassword (hparts.change hq)
        exact h.sanitizeURL_eq ht (.cons (.refl primary) (forall₂_replace hsame))
      have h97 := hall [97] (List.forall_mem_singleton.mpr rfl)
      have h98 := hall [98] (List.forall_mem_singleton.mpr rfl)
      exact absurd (h97.trans h98.symm)
        (sanitizeURL_ne_of_later parses primary l₁ l₂ hparts)

/-- The password of the first URL stays hidden only where `url.Parse` accepts the
list with every other password. -/
theorem HidesPasswords.first {parses : Bytes → Bool} {t : Transport} {primary : Bytes}
    {extra : List Bytes} (h : HidesPasswords parses t primary extra) (ht : ¬ t.embedded)
    (hfirst : passwordPart primary ≠ none) {v : Bytes} (hv : SameButPassword primary v) :
    Covered parses (joinNATSURLs (v :: extra)) := by
  obtain ⟨part, hpart⟩ := Option.ne_none_iff_exists'.mp hfirst
  obtain ⟨before, p, after⟩ := part
  have hprimary := passwordPart_eq_some.mp hpart
  obtain ⟨q, hq⟩ := hv.parts hprimary
  obtain ⟨x, y, hparts⟩ := hprimary.append (extra.flatMap fun u => comma :: u)
  have hlonger : ∀ c ∈ 97 :: q, inAuthority c :=
    List.forall_mem_cons.mpr ⟨by decide, hq.password_mem⟩
  have hraw := hparts q hq.password_mem
  rw [← hq.raw_eq] at hraw
  have hraw' := hparts (97 :: q) hlonger
  have hsame : ∀ {w : Bytes}, SameButPassword primary w →
      sanitizeURL parses (joinNATSURLs (w :: extra)) =
        sanitizeURL parses (joinNATSURLs (primary :: extra)) :=
    fun hw => h.sanitizeURL_eq ht (.cons hw (List.forall₂_same.mpr fun u _ => .refl u))
  have hprint := (hsame (hprimary.sameButPassword (hq.change hlonger))).trans (hsame hv).symm
  intro before' password after' hcover hmask
  have heq := (passwordPart_eq_some.mpr hcover).symm.trans (passwordPart_eq_some.mpr hraw)
  cases heq
  by_contra hrefused
  exact sanitizeURL_ne_of_refused hraw hraw' hmask hrefused hprint

/-- URLs without passwords are what they are. -/
theorem eq_of_forall₂ {l l' : List Bytes} (h : List.Forall₂ SameButPassword l l')
    (hl : ∀ u ∈ l, passwordPart u = none) : l' = l := by
  induction h with
  | nil => rfl
  | cons hsame _ ih =>
      obtain ⟨hu, hl⟩ := List.forall_mem_cons.mp hl
      rw [hsame.eq_of_none hu, ih hl]

/-- The text of a transport does not depend on the passwords exactly where it is
that of an embedded server, or no URL but the first has a password and `url.Parse`
accepts the list with every password of the first. -/
theorem hidesPasswords_iff (parses : Bytes → Bool) (t : Transport) (primary : Bytes)
    (extra : List Bytes) :
    HidesPasswords parses t primary extra ↔
      t.embedded ∨ ((∀ u ∈ extra, passwordPart u = none) ∧
        (passwordPart primary ≠ none → ∀ v, SameButPassword primary v →
          Covered parses (joinNATSURLs (v :: extra)))) := by
  constructor
  · intro h
    by_cases ht : t.embedded
    · exact .inl ht
    · exact .inr ⟨h.later ht, fun hfirst v hv => h.first ht hfirst hv⟩
  · intro h primary' extra' hsame
    rcases h with ht | ⟨hlater, hfirst⟩
    · rw [Transport.string, Transport.string, if_pos (by exact ht), if_pos (by exact ht)]
    · obtain ⟨hprimary, hextra⟩ := List.forall₂_cons.mp hsame
      rw [eq_of_forall₂ hextra hlater]
      by_cases hnone : passwordPart primary = none
      · rw [hprimary.eq_of_none hnone]
      · rw [Transport.string, Transport.string, Transport.withURLs, Transport.withURLs,
          (hfirst hnone primary' hprimary).sanitizeURL_eq,
          (hfirst hnone primary (.refl primary)).sanitizeURL_eq, hprimary.redacted_eq]

/-- A transport to a server of its own, without security. -/
def plainTransport : Transport where
  url := []
  embedded := false
  productionSecurity := none
  productionValidator := none

/-- With two servers, the password of the second one is printed, whether or not
`url.Parse` accepts the list. -/
theorem secondPassword_printed :
    List.Forall₂ SameButPassword
      [bytesOf "nats://svc:pw1@n1:4222", bytesOf "nats://svc:pw2@n2:4222"]
      [bytesOf "nats://svc:pw1@n1:4222", bytesOf "nats://svc:pw3@n2:4222"] ∧
    ∀ parses : Bytes → Bool,
      (plainTransport.withURLs (bytesOf "nats://svc:pw1@n1:4222")
        [bytesOf "nats://svc:pw2@n2:4222"]).string parses ≠
      (plainTransport.withURLs (bytesOf "nats://svc:pw1@n1:4222")
        [bytesOf "nats://svc:pw3@n2:4222"]).string parses := by
  have hsame : SameButPassword (bytesOf "nats://svc:pw2@n2:4222")
      (bytesOf "nats://svc:pw3@n2:4222") :=
    .inr ⟨bytesOf "nats://svc:", bytesOf "pw2", bytesOf "pw3", bytesOf "@n2:4222",
      passwordPart_eq_some.mp (by decide), passwordPart_eq_some.mp (by decide)⟩
  refine ⟨.cons (.refl _) (.cons hsame .nil), fun parses => ?_⟩
  rw [string_withURLs (by decide), string_withURLs (by decide), sanitizeURL, sanitizeURL]
  split
  · split
    · decide
    · decide
  · split
    · decide
    · decide

end TransportNats.Server
