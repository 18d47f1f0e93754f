import Thunderducks.Lib.Replace

/-!
# Origin — which origins a passkey ceremony accepts (`origin_ok` of `td-crypto/src/passkey.rs`)

The origin is compared after replacements, trimming and a split at the first colon.  For the origin of
`localhost_default`, `originOk_iff` says which strings pass: any number of `http://`, then any number of
`https://`, then one of the two hosts, then nothing or a colon with anything after it.
`asDocumented_iff` says for which strings that is as it should be.
-/

namespace Thunderducks
namespace Crypto

open Lib Replace

/-! ## The code -/

inductive Scheme where
  | http
  | https
  deriving DecidableEq

def Scheme.text : Scheme → List Char
  | .http => "http://".toList
  | .https => "https://".toList

def localhost : List Char :=
  "localhost".toList

def loopback : List Char :=
  "127.0.0.1".toList

/-- `s.replace("http://127.0.0.1", "http://localhost")`, for either scheme. -/
def toLocalhost (sch : Scheme) (s : List Char) : List Char :=
  replace (sch.text ++ loopback) (sch.text ++ localhost) s

/-- `norm` of `origin_ok`. -/
def originNorm (s : List Char) : List Char :=
  toLocalhost .https (toLocalhost .http s)

/-- `host_of` of `origin_ok`. -/
def hostOf (s : List Char) : List Char :=
  (trimStart Scheme.https.text (trimStart Scheme.http.text s)).takeWhile fun c => c ≠ ':'

def originOk (got expected : String) : Bool :=
  if got = expected then
    true
  else
    let g := originNorm got.toList
    let e := originNorm expected.toList
    if g = e then true else hostOf g = localhost ∧ hostOf e = localhost

/-- The origin of `PasskeyRegistry::localhost_default`. -/
def localhostOrigin : String :=
  "http://localhost:8788"

/-! ## Schemes and hosts -/

namespace Scheme

variable {sch sch' : Scheme} {s : List Char}

/-- One `h`, at the front. -/
theorem text_eq (sch : Scheme) : ∃ t, sch.text = 'h' :: t ∧ 'h' ∉ t := by
  cases sch with
  | http => exact ⟨_, rfl, by decide⟩
  | https => exact ⟨_, rfl, by decide⟩

theorem text_ne_nil (sch : Scheme) : sch.text ≠ [] := by
  rcases sch.text_eq with ⟨t, ht, _⟩
  rw [ht]
  exact List.cons_ne_nil _ _

theorem text_prefix_iff : sch.text <+: sch'.text ++ s ↔ sch = sch' := by
  constructor
  · rintro ⟨u, hu⟩
    have hfourth := congrArg (fun l => l[4]?) hu
    cases sch with
    | http =>
        cases sch' with
        | http => rfl
        | https => exact absurd (Option.some.inj hfourth) (by decide)
    | https =>
        cases sch' with
        | http => exact absurd (Option.some.inj hfourth) (by decide)
        | https => rfl
  · rintro rfl
    exact List.prefix_append _ _

theorem not_loopback_prefix : ¬ loopback <+: sch.text ++ s := by
  rintro ⟨u, hu⟩
  rcases sch.text_eq with ⟨t, ht, _⟩
  rw [ht] at hu
  exact absurd (List.cons.inj hu).1 (by decide)

theorem not_loopback_copies (h : ¬ loopback <+: s) (n : Nat) : ¬ loopback <+: copies sch.text n s := by
  cases n with
  | zero => exact h
  | succ n =>
      rw [copies_succ]
      exact not_loopback_prefix

end Scheme

open Scheme

theorem not_loopback_localhost {s : List Char} : ¬ loopback <+: localhost ++ s := by
  rintro ⟨u, hu⟩
  exact absurd (List.cons.inj hu).1 (by decide)

section Replacing

variable {sch sch' : Scheme} {s : List Char}

theorem toLocalhost_hit (s : List Char) :
    toLocalhost sch (sch.text ++ (loopback ++ s)) = sch.text ++ (localhost ++ toLocalhost sch s) := by
  have hne : sch.text ++ loopback ≠ [] := by
    simp [sch.text_ne_nil]
  have hhit : toLocalhost sch (sch.text ++ loopback ++ s) = sch.text ++ localhost ++ toLocalhost sch s :=
    replace_append hne s
  rwa [List.append_assoc, List.append_assoc] at hhit

/-- A scheme is left alone unless it is the one replaced and the loopback address follows. -/
theorem toLocalhost_pass (h : sch = sch' → ¬ loopback <+: s) :
    toLocalhost sch (sch'.text ++ s) = sch'.text ++ toLocalhost sch s := by
  rcases sch.text_eq with ⟨t, ht, _⟩
  rcases sch'.text_eq with ⟨t', ht', hh⟩
  have hne : ¬ sch.text ++ loopback <+: sch'.text ++ s := by
    intro hpre
    have hsame : sch = sch' := text_prefix_iff.1 ((List.prefix_append _ _).trans hpre)
    refine h hsame ?_
    rwa [hsame, List.prefix_append_right_inj] at hpre
  unfold toLocalhost
  rw [ht', List.cons_append] at hne ⊢
  rw [replace_cons hne, replace_append_left (a := 'h') (by rw [ht]; rfl) hh, List.cons_append]

theorem toLocalhost_copies (h : ¬ loopback <+: s) (n : Nat) :
    toLocalhost sch (copies sch'.text n s) = copies sch'.text n (toLocalhost sch s) := by
  induction n with
  | zero => rfl
  | succ n ih =>
      rw [copies_succ, toLocalhost_pass fun _ => not_loopback_copies h n, ih, copies_succ]

theorem toLocalhost_loopback (s : List Char) :
    toLocalhost sch (loopback ++ s) = loopback ++ toLocalhost sch s := by
  rcases sch.text_eq with ⟨t, ht, _⟩
  exact replace_append_left (a := 'h') (by rw [ht]; rfl) (by decide) s

/-- The `h` of `localhost` begins no scheme. -/
theorem toLocalhost_localhost (s : List Char) :
    toLocalhost sch (localhost ++ s) = localhost ++ toLocalhost sch s := by
  have hhead : (sch.text ++ loopback).head? = some 'h' := by
    rcases sch.text_eq with ⟨t, ht, _⟩
    rw [ht]
    rfl
  have hne : ¬ sch.text ++ loopback <+: 'h' :: ("ost".toList ++ s) := by
    rintro ⟨u, hu⟩
    have hsecond := congrArg (fun l => l[1]?) hu
    cases sch with
    | http => exact absurd (Option.some.inj hsecond) (by decide)
    | https => exact absurd (Option.some.inj hsecond) (by decide)
  calc toLocalhost sch (localhost ++ s)
      = "local".toList ++ toLocalhost sch ('h' :: ("ost".toList ++ s)) :=
        replace_append_left (l := "local".toList) hhead (by decide) _
    _ = "local".toList ++ 'h' :: toLocalhost sch ("ost".toList ++ s) :=
        congrArg ("local".toList ++ ·) (replace_cons hne)
    _ = "local".toList ++ 'h' :: ("ost".toList ++ toLocalhost sch s) :=
        congrArg ("local".toList ++ 'h' :: ·) (replace_append_left hhead (by decide) s)
    _ = localhost ++ toLocalhost sch s := rfl

theorem loopback_prefix_toLocalhost : loopback <+: toLocalhost sch s ↔ loopback <+: s := by
  rcases sch.text_eq with ⟨t, ht, _⟩
  exact prefix_replace_iff (a := 'h') (by rw [ht]; rfl) (by rw [ht]; rfl) (by decide)

theorem text_prefix_toLocalhost : sch'.text <+: toLocalhost sch s ↔ sch'.text <+: s := by
  rcases sch.text_eq with ⟨t, ht, _⟩
  rcases sch'.text_eq with ⟨t', ht', hh⟩
  have hne : sch.text ++ loopback ≠ [] := by
    simp [sch.text_ne_nil]
  unfold toLocalhost
  rcases replace_cases hne _ s with rfl | ⟨u, hs, hu⟩ | ⟨c, u, hs, hu⟩
  · rfl
  · -- what is replaced begins with a scheme before and after
    rw [hu, hs, List.append_assoc, List.append_assoc, text_prefix_iff, text_prefix_iff]
  · rw [hu, hs, ht', List.cons_prefix_cons, List.cons_prefix_cons,
      prefix_replace_iff (a := 'h') (by rw [ht]; rfl) (by rw [ht]; rfl) hh]

theorem takeWhile_toLocalhost :
    (toLocalhost sch s).takeWhile (fun c => c ≠ ':') = s.takeWhile fun c => c ≠ ':' := by
  cases sch with
  | http =>
      exact takeWhile_replace (p := "http".toList) (q := "//127.0.0.1".toList) (r := "//localhost".toList) s
  | https =>
      exact takeWhile_replace (p := "https".toList) (q := "//127.0.0.1".toList) (r := "//localhost".toList) s

theorem originNorm_localhost (s : List Char) : originNorm (localhost ++ s) = localhost ++ originNorm s := by
  unfold originNorm
  rw [toLocalhost_localhost, toLocalhost_localhost]

theorem text_prefix_originNorm : sch.text <+: originNorm s ↔ sch.text <+: s := by
  unfold originNorm
  rw [text_prefix_toLocalhost, text_prefix_toLocalhost]

theorem takeWhile_originNorm :
    (originNorm s).takeWhile (fun c => c ≠ ':') = s.takeWhile fun c => c ≠ ':' := by
  unfold originNorm
  rw [takeWhile_toLocalhost, takeWhile_toLocalhost]

end Replacing

/-! ## Readings -/

/-- `a` times `http://`, `b` times `https://`, then `s`. -/
def schemes (a b : Nat) (s : List Char) : List Char :=
  copies Scheme.http.text a (copies Scheme.https.text b s)

section Readings

variable {a b : Nat} {s : List Char}

theorem exists_schemes (got : List Char) : ∃ a b s, got = schemes a b s ∧ ¬ Scheme.https.text <+: s ∧
    (b = 0 → ¬ Scheme.http.text <+: s) := by
  rcases exists_copies Scheme.http.text_ne_nil got with ⟨a, ha, hnot⟩
  rcases exists_copies Scheme.https.text_ne_nil (trimStart Scheme.http.text got) with ⟨b, hb, hnot'⟩
  refine ⟨a, b, trimStart Scheme.https.text (trimStart Scheme.http.text got), ?_, hnot', ?_⟩
  · unfold schemes
    rw [← hb, ← ha]
  · rintro rfl
    rw [copies_zero] at hb
    rwa [← hb]

theorem trim_schemes (hs : ¬ Scheme.https.text <+: s) (hb : b = 0 → ¬ Scheme.http.text <+: s) :
    trimStart Scheme.https.text (trimStart Scheme.http.text (schemes a b s)) = s := by
  have hhttp : ¬ Scheme.http.text <+: copies Scheme.https.text b s := by
    cases b with
    | zero => exact hb rfl
    | succ b =>
        rw [copies_succ, text_prefix_iff]
        decide
  unfold schemes
  rw [trimStart_copies Scheme.http.text_ne_nil hhttp, trimStart_copies Scheme.https.text_ne_nil hs]

theorem hostOf_schemes (hs : ¬ Scheme.https.text <+: s) (hb : b = 0 → ¬ Scheme.http.text <+: s) :
    hostOf (schemes a b s) = s.takeWhile fun c => c ≠ ':' := by
  unfold hostOf
  rw [trim_schemes hs hb]

theorem originNorm_schemes (h : ¬ loopback <+: s) : originNorm (schemes a b s) = schemes a b (originNorm s) := by
  have h' : ¬ loopback <+: toLocalhost .http s := by
    rwa [loopback_prefix_toLocalhost]
  unfold originNorm schemes
  rw [toLocalhost_copies (not_loopback_copies h b), toLocalhost_copies h,
    toLocalhost_copies (not_loopback_copies h' b), toLocalhost_copies h']

/-- The last scheme turns the loopback address into `localhost`. -/
theorem originNorm_schemes_loopback (hpos : 0 < a + b) (s : List Char) :
    originNorm (schemes a b (loopback ++ s)) = schemes a b (localhost ++ originNorm s) := by
  unfold originNorm schemes
  cases b with
  | zero =>
      cases a with
      | zero => exact absurd hpos (Nat.lt_irrefl 0)
      | succ a =>
          rw [copies_zero, copies_zero, copies_succ', toLocalhost_copies not_loopback_prefix, toLocalhost_hit,
            toLocalhost_copies not_loopback_prefix, toLocalhost_pass (fun h => by cases h),
            toLocalhost_localhost, ← copies_succ']
  | succ b =>
      rw [copies_succ', toLocalhost_copies (not_loopback_copies not_loopback_prefix b),
        toLocalhost_copies not_loopback_prefix, toLocalhost_pass (fun h => by cases h), toLocalhost_loopback,
        toLocalhost_copies (not_loopback_copies not_loopback_prefix b), toLocalhost_copies not_loopback_prefix,
        toLocalhost_hit, ← copies_succ']

end Readings

/-! ## What is accepted -/

/-- `got` reads as `a` times `http://`, `b` times `https://`, one of the two hosts, and a rest that is empty or
begins with a colon.  The loopback address needs a scheme. -/
structure Reads (got : String) (a b : Nat) (host rest : List Char) : Prop where
  reads : got.toList = schemes a b (host ++ rest)
  hosts : host = localhost ∨ host = loopback ∧ 0 < a + b
  rests : rest = [] ∨ ∃ t, rest = ':' :: t

/-- The hosts begin no scheme. -/
theorem not_begins_scheme {sch : Scheme} {host rest : List Char} (h : host = localhost ∨ host = loopback) :
    ¬ sch.text <+: host ++ rest := by
  rintro ⟨u, hu⟩
  rcases sch.text_eq with ⟨t, ht, _⟩
  rw [ht] at hu
  rcases h with rfl | rfl
  · exact absurd (List.cons.inj hu).1 (by decide)
  · exact absurd (List.cons.inj hu).1 (by decide)

/-- Either host becomes `localhost`. -/
theorem Reads.originNorm {got : String} {a b : Nat} {host rest : List Char} (h : Reads got a b host rest) :
    originNorm got.toList = schemes a b (localhost ++ originNorm rest) := by
  rw [h.reads]
  rcases h.hosts with rfl | ⟨rfl, hpos⟩
  · rw [originNorm_schemes not_loopback_localhost, originNorm_localhost]
  · exact originNorm_schemes_loopback hpos rest

theorem hostOf_originNorm_iff (got : String) :
    hostOf (originNorm got.toList) = localhost ↔ ∃ a b host rest, Reads got a b host rest := by
  have hcolon : ':' ∉ localhost := by
    decide
  constructor
  · intro h
    rcases exists_schemes got.toList with ⟨a, b, s, hgot, hs, hb⟩
    by_cases hhit : loopback <+: s ∧ 0 < a + b
    · rcases hhit with ⟨⟨t, rfl⟩, hpos⟩
      rw [hgot, originNorm_schemes_loopback hpos,
        hostOf_schemes (not_begins_scheme (Or.inl rfl)) fun _ => not_begins_scheme (Or.inl rfl)] at h
      rcases (takeWhile_eq_iff hcolon).1 h with ⟨rest, heq, hrest⟩
      -- the rest of the normal form begins as the rest itself does
      have hnil : t.takeWhile (fun c => c ≠ ':') = [] := by
        rw [← takeWhile_originNorm, List.append_cancel_left heq]
        exact takeWhile_eq_nil_iff.2 hrest
      exact ⟨a, b, loopback, t, hgot, Or.inr ⟨rfl, hpos⟩, takeWhile_eq_nil_iff.1 hnil⟩
    · -- no address to replace, or no scheme before it: the schemes stay as they are
      have hnorm : originNorm (schemes a b s) = schemes a b (originNorm s) := by
        by_cases hloop : loopback <+: s
        · have hzero : a = 0 ∧ b = 0 := by
            have := mt (And.intro hloop) hhit
            omega
          rcases hzero with ⟨rfl, rfl⟩
          rfl
        · exact originNorm_schemes hloop
      rw [hgot, hnorm, hostOf_schemes (by rwa [text_prefix_originNorm])
        (fun h0 => by rw [text_prefix_originNorm]; exact hb h0), takeWhile_originNorm] at h
      rcases (takeWhile_eq_iff hcolon).1 h with ⟨rest, rfl, hrest⟩
      exact ⟨a, b, localhost, rest, hgot, Or.inl rfl, hrest⟩
  · rintro ⟨a, b, host, rest, h⟩
    rw [h.originNorm, hostOf_schemes (not_begins_scheme (Or.inl rfl)) fun _ => not_begins_scheme (Or.inl rfl),
      takeWhile_eq_iff hcolon]
    refine ⟨_, rfl, ?_⟩
    rw [← takeWhile_eq_nil_iff, takeWhile_originNorm]
    exact takeWhile_eq_nil_iff.2 h.rests

/-- For the origin of `localhost_default`. -/
theorem originOk_iff (got : String) :
    originOk got localhostOrigin = true ↔ ∃ a b host rest, Reads got a b host rest := by
  have hhost : hostOf (originNorm localhostOrigin.toList) = localhost := by
    decide +kernel
  rw [← hostOf_originNorm_iff]
  unfold originOk
  dsimp only
  split
  next heq =>
    rw [heq]
    exact iff_of_true rfl hhost
  · split
    next heq =>
      rw [heq]
      exact iff_of_true rfl hhost
    · simp [hhost]

/-! ## What is documented -/

def IsHost (host : List Char) : Prop :=
  host = localhost ∨ host = loopback

/-- A decimal number. -/
def IsPort (port : List Char) : Prop :=
  port ≠ [] ∧ ∀ c ∈ port, c.isDigit = true

/-- `scheme://host` or `scheme://host:port`. -/
inductive WellFormed : List Char → Prop where
  | host {host : List Char} (sch : Scheme) :
      IsHost host → WellFormed (sch.text ++ host)
  | port {host port : List Char} (sch : Scheme) :
      IsHost host → IsPort port → WellFormed (sch.text ++ (host ++ ':' :: port))

/-- Nothing, or a colon and a port. -/
def IsRest (rest : List Char) : Prop :=
  rest = [] ∨ ∃ port, rest = ':' :: port ∧ IsPort port

theorem IsRest.begins {rest : List Char} (h : IsRest rest) : rest = [] ∨ ∃ t, rest = ':' :: t := by
  rcases h with hnil | ⟨port, hport, _⟩
  · exact Or.inl hnil
  · exact Or.inr ⟨port, hport⟩

section Documented

variable {got : String} {a b a' b' : Nat} {host rest host' rest' : List Char}

/-- One scheme, a host and its port. -/
theorem wellFormed_of_scheme {sch : Scheme} (hhost : IsHost host) (hrest : IsRest rest) :
    WellFormed (sch.text ++ (host ++ rest)) := by
  rcases hrest with rfl | ⟨port, rfl, hport⟩
  · rw [List.append_nil]
    exact WellFormed.host sch hhost
  · exact WellFormed.port sch hhost hport

theorem exists_scheme_of_wellFormed {s : List Char} (h : WellFormed s) :
    ∃ sch host rest, s = Scheme.text sch ++ (host ++ rest) ∧ IsHost host ∧ IsRest rest := by
  cases h with
  | @host host sch hhost => exact ⟨sch, host, [], by rw [List.append_nil], hhost, Or.inl rfl⟩
  | @port host port sch hhost hport => exact ⟨sch, host, _, rfl, hhost, Or.inr ⟨port, rfl, hport⟩⟩

theorem wellFormed_iff : WellFormed got.toList ↔
    ∃ a b host rest, Reads got a b host rest ∧ a + b = 1 ∧ IsRest rest := by
  constructor
  · intro h
    rcases exists_scheme_of_wellFormed h with ⟨sch, host, rest, hgot, hhost, hrest⟩
    have hhosts : host = localhost ∨ host = loopback ∧ 0 < 1 :=
      hhost.imp_right fun hl => ⟨hl, Nat.one_pos⟩
    cases sch with
    | http =>
        refine ⟨1, 0, host, rest, ⟨?_, hhosts, hrest.begins⟩, rfl, hrest⟩
        rw [hgot, schemes, copies_succ, copies_zero, copies_zero]
    | https =>
        refine ⟨0, 1, host, rest, ⟨?_, hhosts, hrest.begins⟩, rfl, hrest⟩
        rw [hgot, schemes, copies_succ, copies_zero, copies_zero]
  · rintro ⟨a, b, host, rest, h, hone, hrest⟩
    have hhost : IsHost host := h.hosts.imp_right And.left
    have hab : a = 1 ∧ b = 0 ∨ a = 0 ∧ b = 1 := by
      omega
    rw [h.reads, schemes]
    rcases hab with ⟨rfl, rfl⟩ | ⟨rfl, rfl⟩
    · rw [copies_succ, copies_zero, copies_zero]
      exact wellFormed_of_scheme hhost hrest
    · rw [copies_succ, copies_zero, copies_zero]
      exact wellFormed_of_scheme hhost hrest

/-- What follows the schemes, and how long they are. -/
theorem Reads.unique (h : Reads got a b host rest) (h' : Reads got a' b' host' rest') :
    rest = rest' ∧ 7 * a + 8 * b = 7 * a' + 8 * b' := by
  have htrim : ∀ {a b host rest}, Reads got a b host rest →
      trimStart Scheme.https.text (trimStart Scheme.http.text got.toList) = host ++ rest := by
    intro a b host rest h
    rw [h.reads]
    have hhost := h.hosts.imp_right And.left
    exact trim_schemes (not_begins_scheme hhost) fun _ => not_begins_scheme hhost
  have hboth : host ++ rest = host' ++ rest' := (htrim h).symm.trans (htrim h')
  have hlength : ∀ {a b host rest}, Reads got a b host rest →
      got.toList.length = 7 * a + (8 * b + (host ++ rest).length) := by
    intro a b host rest h
    rw [h.reads, schemes, length_copies, length_copies, Nat.mul_comm a, Nat.mul_comm b]
    rfl
  constructor
  · rcases h.hosts with rfl | ⟨rfl, _⟩
    · rcases h'.hosts with rfl | ⟨rfl, _⟩
      · exact List.append_cancel_left hboth
      · exact absurd (List.cons.inj hboth).1 (by decide)
    · rcases h'.hosts with rfl | ⟨rfl, _⟩
      · exact absurd (List.cons.inj hboth).1 (by decide)
      · exact List.append_cancel_left hboth
  · have := (hlength h).symm.trans (hlength h')
    rw [hboth] at this
    omega

/-- However the string reads, it has one scheme, and a port if anything follows the host. -/
def ReadsPlainly (got : String) : Prop :=
  ∀ a b host rest, Reads got a b host rest → a + b = 1 ∧ IsRest rest

/-- The well-formed origins are accepted, and nothing else is if the string can be read in no other way. -/
theorem originOk_iff_wellFormed (got : String) :
    (originOk got localhostOrigin = true ↔ WellFormed got.toList) ↔ ReadsPlainly got := by
  rw [originOk_iff, wellFormed_iff]
  constructor
  · intro h a b host rest hreads
    rcases h.1 ⟨a, b, host, rest, hreads⟩ with ⟨a', b', host', rest', hreads', hone, hrest⟩
    rcases hreads.unique hreads' with ⟨rfl, hlen⟩
    -- seven and eight characters are the lengths of one scheme only
    exact ⟨by omega, hrest⟩
  · intro h
    constructor
    · rintro ⟨a, b, host, rest, hreads⟩
      exact ⟨a, b, host, rest, hreads, h a b host rest hreads⟩
    · rintro ⟨a, b, host, rest, hreads, _⟩
      exact ⟨a, b, host, rest, hreads⟩

end Documented

/-- What follows the colon is no port: the host of this origin is `evil.example`. -/
theorem originOk_userInfo :
    ¬ (originOk "http://localhost:pw@evil.example" localhostOrigin = true ↔
      WellFormed "http://localhost:pw@evil.example".toList) := by
  intro h
  have hok : originOk "http://localhost:pw@evil.example" localhostOrigin = true := by
    decide +kernel
  have hreads : Reads "http://localhost:pw@evil.example" 1 0 localhost ":pw@evil.example".toList :=
    ⟨rfl, Or.inl rfl, Or.inr ⟨_, rfl⟩⟩
  rcases wellFormed_iff.1 (h.1 hok) with ⟨a, b, host, rest, hreads', _, hrest⟩
  rcases (hreads.unique hreads').1 with rfl
  rcases hrest with hnil | ⟨port, hport, _, hdigits⟩
  · cases hnil
  · have hp := hdigits 'p' (by rw [← (List.cons.inj hport).2]; decide)
    exact absurd hp (by decide)

/-- The origin of `localhost_default` and the other host on another port. -/
example : originOk "http://localhost:8788" localhostOrigin = true ∧
    originOk "https://127.0.0.1:9000" localhostOrigin = true := by
  decide +kernel

end Crypto
end Thunderducks
