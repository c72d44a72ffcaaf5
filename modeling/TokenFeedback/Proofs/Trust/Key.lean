import TokenFeedback.Proofs.Trust.Identity

/-!
# The key of an identity

The key of an identity is the first one of its file, and the file is read no further: what is put
behind that key, other keys and sections that are malformed among it, is passed over in silence. So
a file with more than one key is taken for the first of them.

* `keysIn`: the private keys of a file, in order.
* `firstKey_eq_ok_iff`: which key is read of a file.
* `firstKey_behind`: what is put behind a file does not change its key.
* `ofPem_first_key`: **which identities are read, and that only the first key counts.**
* `second_key_passed_over`: a file with two keys.
-/

namespace TokenFeedback

open Pem (Section LineEnd Piece contents file sections)

/-- The section that a key is kept in. -/
def PrivateKey.kept (key : PrivateKey) : Section := ⟨key.form.kind, key.der⟩

/-- The key that is kept in a section. -/
def Pem.Section.key? (s : Section) : Option PrivateKey := s.kind.keyForm?.map (⟨·, s.der⟩)

theorem PrivateKey.key?_kept (key : PrivateKey) : key.kept.key? = some key := by
  rw [Pem.Section.key?, kept, Pem.Kind.keyForm?_kind]
  rfl

/-- A section is the one that its key is kept in. -/
theorem Pem.Section.eq_kept {s : Section} {key : PrivateKey} (h : s.key? = some key) :
    s = key.kept := by
  obtain ⟨kind, der⟩ := s
  rw [key?] at h
  cases kind with
  | rsaPrivateKey | privateKey | ecPrivateKey =>
    rw [← Option.some.inj h]
    rfl
  | certificate | publicKey | revocationList | certificateRequest | echConfig => cases h

namespace Identity

/-- The private keys among sections, in order. -/
def keysOf (found : List Section) : List PrivateKey := found.filterMap Section.key?

/-- The sections of a file that are no faults. -/
def soundOf (all : List (Except Pem.Error Section)) : List Section := all.filterMap Except.toOption

theorem soundOf_map_ok (found : List Section) : soundOf (found.map .ok) = found := by
  rw [soundOf, List.filterMap_map]
  exact List.filterMap_some

/-- The private keys of a file, in order. -/
def keysIn (keyFile : Bytes) : List PrivateKey := keysOf (soundOf (sections keyFile))

/-- The key of a section ends the search for the first one. -/
theorem firstKey_ok_cons (s : Section) (rest : List (Except Pem.Error Section)) :
    firstKey (.ok s :: rest) =
      match s.key? with
      | some key => .ok key
      | none => firstKey rest := by
  rw [firstKey, Section.key?]
  cases s.kind.keyForm? <;> rfl

variable {all found ending : List (Except Pem.Error Section)} {key : PrivateKey}

/-- **Which key is read of a file**: the one that has no other key and no fault before it. -/
theorem firstKey_eq_ok_iff :
    firstKey all = .ok key ↔ ∃ (before : List Section) (later : List (Except Pem.Error Section)),
      all = before.map .ok ++ .ok key.kept :: later ∧ keysOf before = [] := by
  constructor
  · intro h
    induction all with
    | nil => cases h
    | cons x all ih =>
      cases x with
      | error e => cases h
      | ok s =>
        rw [firstKey_ok_cons] at h
        cases hkey : s.key? with
        | some k =>
          rw [hkey] at h
          obtain rfl : k = key := Except.ok.inj h
          exact ⟨[], all, by rw [Section.eq_kept hkey]; rfl, rfl⟩
        | none =>
          rw [hkey] at h
          obtain ⟨before, later, rfl, hbefore⟩ := ih h
          refine ⟨s :: before, later, rfl, ?_⟩
          rw [keysOf, List.filterMap_cons_none hkey]
          exact hbefore
  · rintro ⟨before, later, rfl, hbefore⟩
    induction before with
    | nil => rw [List.map_nil, List.nil_append, firstKey_ok_cons, key.key?_kept]
    | cons s before ih =>
      cases hkey : s.key? with
      | some k =>
        rw [keysOf, List.filterMap_cons_some hkey] at hbefore
        cases hbefore
      | none =>
        rw [keysOf, List.filterMap_cons_none hkey] at hbefore
        rw [List.map_cons, List.cons_append, firstKey_ok_cons, hkey]
        exact ih hbefore

/-- What comes behind the first key does not change it. -/
theorem firstKey_append (h : firstKey (found ++ ending) = .ok key)
    (closed : ∀ x ∈ ending, ∃ e, x = .error e) (later : List (Except Pem.Error Section)) :
    firstKey (found ++ later) = .ok key := by
  induction found with
  | nil =>
    cases ending with
    | nil => cases h
    | cons x ending =>
      obtain ⟨e, rfl⟩ := closed x List.mem_cons_self
      cases h
  | cons x found ih =>
    cases x with
    | error e => cases h
    | ok s =>
      rw [List.cons_append, firstKey_ok_cons] at h ⊢
      cases hkey : s.key? with
      | some k =>
        rw [hkey] at h
        exact h
      | none =>
        rw [hkey] at h
        exact ih h

/-- **What is put behind a file does not change its key.** -/
theorem firstKey_behind {keyFile : Bytes} (h : firstKey (sections keyFile) = .ok key)
    (e : LineEnd) (behind : Bytes) :
    firstKey (sections (keyFile ++ e.bytes ++ behind)) = .ok key := by
  obtain ⟨found, ending, hfile, hending, hbehind⟩ := Pem.sections_behind keyFile
  obtain ⟨later, hlater⟩ := hbehind e behind
  rw [hfile] at h
  rw [hlater]
  refine firstKey_append h (fun x hx => ?_) later
  obtain ⟨l, hl⟩ := hending x hx
  exact ⟨_, hl⟩

/-- The key that is read of a file is the first of its keys. -/
theorem keysIn_of_firstKey {keyFile : Bytes} (h : firstKey (sections keyFile) = .ok key) :
    ∃ others, keysIn keyFile = key :: others := by
  obtain ⟨before, later, hfile, hbefore⟩ := firstKey_eq_ok_iff.1 h
  have hsound : soundOf (sections keyFile) = before ++ key.kept :: soundOf later := by
    rw [hfile, soundOf, List.filterMap_append]
    exact congrArg (· ++ key.kept :: soundOf later) (soundOf_map_ok before)
  refine ⟨keysOf (soundOf later), ?_⟩
  calc keysIn keyFile
      = keysOf before ++ keysOf (key.kept :: soundOf later) := by
        rw [keysIn, hsound, keysOf, List.filterMap_append]
        rfl
    _ = key :: keysOf (soundOf later) := by
        rw [hbefore, List.nil_append, keysOf, List.filterMap_cons_some key.key?_kept]
        rfl

/-- The first of the keys is read of a file without faults. -/
theorem firstKey_map_ok {found : List Section} {others : List PrivateKey}
    (h : keysOf found = key :: others) : firstKey (found.map .ok) = .ok key := by
  induction found with
  | nil => cases h
  | cons s found ih =>
    rw [List.map_cons, firstKey_ok_cons]
    cases hkey : s.key? with
    | some k =>
      rw [keysOf, List.filterMap_cons_some hkey] at h
      rw [(List.cons.inj h).1]
    | none =>
      rw [keysOf, List.filterMap_cons_none hkey] at h
      exact ih h

theorem certificates_eq_ok_iff {chain : List Bytes} :
    certificates all = .ok chain ↔
      ∃ sound : List Section, all = sound.map .ok ∧ chainOf sound = chain := by
  constructor
  · intro h
    rcases read_or_fault all with ⟨sound, rfl⟩ | ⟨sound, e, later, rfl⟩
    · rw [certificates_map_ok] at h
      exact ⟨sound, rfl, Except.ok.inj h⟩
    · rw [certificates_fault] at h
      cases h
  · rintro ⟨sound, rfl, rfl⟩
    exact certificates_map_ok sound

/-- An identity is read of two files if the certificates of the one and the key of the other are. -/
theorem ofPem_eq_ok_iff {certFile keyFile : Bytes} {identity : Identity} :
    ofPem certFile keyFile = .ok identity ↔
      (identity.chain ≠ [] ∧ certificates (sections certFile) = .ok identity.chain) ∧
        firstKey (sections keyFile) = .ok identity.key := by
  rw [ofPem]
  rcases certificates (sections certFile) with e | _ | ⟨c, chain⟩
  · exact ⟨fun h => (by cases h), fun h => (by cases h.1.2)⟩
  · exact ⟨fun h => (by cases h), fun h => absurd (Except.ok.inj h.1.2).symm h.1.1⟩
  · rcases firstKey (sections keyFile) with e | key
    · exact ⟨fun h => (by cases h), fun h => (by cases h.2)⟩
    · constructor
      · intro h
        obtain rfl : (⟨c :: chain, key⟩ : Identity) = identity := Except.ok.inj h
        exact ⟨⟨List.cons_ne_nil c chain, rfl⟩, rfl⟩
      · rintro ⟨⟨-, hchain⟩, hkey⟩
        obtain ⟨chain', key'⟩ := identity
        obtain rfl : c :: chain = chain' := Except.ok.inj hchain
        obtain rfl : key = key' := Except.ok.inj hkey
        rfl

/-- **The first key counts, and nothing behind it.**

An identity is read of two files exactly if the one is sound to its end and has a certificate, and
the other has a private key without a fault before it; the identity has all certificates of the one
and the first key of the other.

So a file without a key is never taken, but one with more keys is taken for its first. Of a file
that is taken the same identity is read whatever is put behind it, further keys as well as things
that are malformed; and of a file that is put together from sections and lines between them the same
identity is read if its first key is the same, however many others it has. -/
theorem ofPem_first_key (certFile keyFile : Bytes) (identity : Identity) :
    (ofPem certFile keyFile = .ok identity ↔
      (identity.chain ≠ [] ∧ ∃ sound : List Section,
        sections certFile = sound.map .ok ∧ chainOf sound = identity.chain) ∧
      ∃ (before : List Section) (later : List (Except Pem.Error Section)),
        sections keyFile = before.map .ok ++ .ok identity.key.kept :: later ∧
          keysOf before = []) ∧
    (ofPem certFile keyFile = .ok identity →
      (∃ others, keysIn keyFile = identity.key :: others) ∧
      (∀ (e : LineEnd) (behind : Bytes),
        ofPem certFile (keyFile ++ e.bytes ++ behind) = .ok identity) ∧
      ∀ (e : LineEnd) (pieces : List Piece) (others : List PrivateKey),
        keysOf (contents pieces) = identity.key :: others →
        keysIn (file e pieces) = identity.key :: others ∧
          ofPem certFile (file e pieces) = .ok identity) := by
  constructor
  · rw [ofPem_eq_ok_iff, certificates_eq_ok_iff, firstKey_eq_ok_iff]
  · intro h
    obtain ⟨hchain, hkey⟩ := ofPem_eq_ok_iff.1 h
    refine ⟨keysIn_of_firstKey hkey,
      fun e behind => ofPem_eq_ok_iff.2 ⟨hchain, firstKey_behind hkey e behind⟩,
      fun e pieces others hkeys => ?_⟩
    have hpieces := Pem.sections_pieces e pieces
    constructor
    · rw [keysIn, hpieces, soundOf_map_ok, hkeys]
    · refine ofPem_eq_ok_iff.2 ⟨hchain, ?_⟩
      rw [hpieces]
      exact firstKey_map_ok hkeys

/-- A key file with two keys, of which the second one is passed over. -/
theorem second_key_passed_over :
    keysIn (Pem.render ⟨.privateKey, [48, 0]⟩ ++ Pem.render ⟨.ecPrivateKey, [48, 1, 7]⟩) =
        [⟨.pkcs8, [48, 0]⟩, ⟨.sec1, [48, 1, 7]⟩] ∧
      ofPem (Pem.render ⟨.certificate, [48]⟩)
          (Pem.render ⟨.privateKey, [48, 0]⟩ ++ Pem.render ⟨.ecPrivateKey, [48, 1, 7]⟩) =
        .ok ⟨[[48]], ⟨.pkcs8, [48, 0]⟩⟩ := by
  decide +kernel

end Identity

end TokenFeedback
