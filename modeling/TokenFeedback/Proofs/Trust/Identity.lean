import TokenFeedback.Proofs.Pem
import TokenFeedback.Trust.Identity

/-!
# The chain of an identity

An identity is read from its files with the whole chain or not at all. Nothing but certificates gets
into the chain and none is left out; a file that is malformed anywhere gives no identity, and not
one with the certificates before the fault.

* `certificates_map_ok`, `certificates_fault`: the certificates of a file that is read to its end,
  and of one that is not.
* `firstKey_of_split`: the first private key of a file, whatever is behind it.
* `ofPem_whole_chain`: **the whole chain or an error.**
-/

namespace TokenFeedback

open Pem (Section LineEnd Piece Fault contents file sections)

/-- The kind of the sections in which keys of a form are kept. -/
def KeyForm.kind : KeyForm → Pem.Kind
  | .pkcs1 => .rsaPrivateKey
  | .sec1 => .ecPrivateKey
  | .pkcs8 => .privateKey

theorem Pem.Kind.keyForm?_kind (form : KeyForm) : form.kind.keyForm? = some form := by
  cases form <;> rfl

theorem Pem.Kind.keyForm?_eq_none {k : Pem.Kind} (h : ∀ form : KeyForm, k ≠ form.kind) :
    k.keyForm? = none := by
  cases k with
  | rsaPrivateKey => exact absurd rfl (h .pkcs1)
  | ecPrivateKey => exact absurd rfl (h .sec1)
  | privateKey => exact absurd rfl (h .pkcs8)
  | certificate | publicKey | revocationList | certificateRequest | echConfig => rfl

namespace Identity

/-- The certificates among sections, in order. -/
def chainOf (found : List Section) : List Bytes :=
  (found.filter fun s => s.kind = .certificate).map Section.der

/-- Certificates are known from their contents. -/
theorem eq_chainOf {found : List Section} {chain : List Bytes}
    (h : (found.filter fun s => s.kind = .certificate) = chain.map (Section.mk .certificate)) :
    chainOf found = chain := by
  rw [chainOf, h, List.map_map]
  exact List.map_id chain

theorem map_chainOf (found : List Section) :
    (chainOf found).map (Section.mk .certificate) =
      found.filter fun s => s.kind = .certificate := by
  rw [chainOf, List.map_map]
  refine (List.map_congr_left fun s hs => ?_).trans (List.map_id _)
  have hkind : s.kind = .certificate := of_decide_eq_true (List.mem_filter.1 hs).2
  exact congrArg (Section.mk · s.der) hkind.symm

theorem certificates_map_ok (found : List Section) :
    certificates (found.map .ok) = .ok (chainOf found) := by
  induction found with
  | nil => rfl
  | cons s found ih =>
    rw [List.map_cons, certificates, ih]
    by_cases hs : s.kind = .certificate
    · have hchain : chainOf (s :: found) = s.der :: chainOf found := by
        rw [chainOf, List.filter_cons_of_pos (by simpa using hs)]
        rfl
      rw [hchain]
      exact congrArg Except.ok (if_pos hs)
    · have hchain : chainOf (s :: found) = chainOf found := by
        rw [chainOf, List.filter_cons_of_neg (by simpa using hs)]
        rfl
      rw [hchain]
      exact congrArg Except.ok (if_neg hs)

/-- **A fault hides what was read before it.** -/
theorem certificates_fault (found : List Section) (e : Pem.Error)
    (later : List (Except Pem.Error Section)) :
    certificates (found.map .ok ++ .error e :: later) = .error e := by
  induction found with
  | nil => rfl
  | cons s found ih =>
    rw [List.map_cons, List.cons_append, certificates, ih]
    rfl

/-- A file is read to its end or up to its first fault. -/
theorem read_or_fault (all : List (Except Pem.Error Section)) :
    (∃ found : List Section, all = found.map .ok) ∨
      ∃ (found : List Section) (e : Pem.Error) (later : List (Except Pem.Error Section)),
        all = found.map .ok ++ .error e :: later := by
  induction all with
  | nil => exact .inl ⟨[], rfl⟩
  | cons x all ih =>
    cases x with
    | error e => exact .inr ⟨[], e, all, rfl⟩
    | ok s =>
      rcases ih with ⟨found, rfl⟩ | ⟨found, e, later, rfl⟩
      · exact .inl ⟨s :: found, rfl⟩
      · exact .inr ⟨s :: found, e, later, rfl⟩

/-- The first private key of a file, whatever is behind it. -/
theorem firstKey_of_split {before : List Section} (h : ∀ s ∈ before, ∀ f : KeyForm, s.kind ≠ f.kind)
    (key : PrivateKey) (later : List (Except Pem.Error Section)) :
    firstKey (before.map .ok ++ .ok ⟨key.form.kind, key.der⟩ :: later) = .ok key := by
  induction before with
  | nil =>
    rw [List.map_nil, List.nil_append, firstKey, Pem.Kind.keyForm?_kind]
  | cons s before ih =>
    have hs : s.kind.keyForm? = none := Pem.Kind.keyForm?_eq_none (h s List.mem_cons_self)
    rw [List.map_cons, List.cons_append, firstKey, hs]
    exact ih fun s' hs' => h s' (List.mem_cons_of_mem s hs')

variable {certFile : Bytes} {found : List Section}

/-- A file of certificates that is read to its end: then the key decides. -/
theorem ofPem_of_chain (h : sections certFile = found.map .ok) (hne : chainOf found ≠ [])
    (keyFile : Bytes) :
    ofPem certFile keyFile =
      match firstKey (sections keyFile) with
      | .error e => .error (.invalidCertificate ("provider key: " ++ e.message))
      | .ok key => .ok ⟨chainOf found, key⟩ := by
  rw [ofPem, h, certificates_map_ok]
  cases hchain : chainOf found with
  | nil => exact absurd hchain hne
  | cons c chain => rfl

theorem ofPem_without_certificate (h : sections certFile = found.map .ok)
    (hempty : chainOf found = []) (keyFile : Bytes) :
    ofPem certFile keyFile =
      .error (.invalidCertificate "provider certificate: no CERTIFICATE block found") := by
  rw [ofPem, h, certificates_map_ok, hempty]

theorem ofPem_fault {e : Pem.Error} {later : List (Except Pem.Error Section)}
    (h : sections certFile = found.map .ok ++ .error e :: later) (keyFile : Bytes) :
    ofPem certFile keyFile =
      .error (.invalidCertificate ("provider certificate: " ++ e.message)) := by
  rw [ofPem, h, certificates_fault]

/-- **The whole chain or an error.**

Put files together from sections, as they are usually written or in other forms, from sections with
unknown labels and from lines that begin no section, with any line ends: if there is a certificate,
the identity has the certificates of the one file in their order, and the first private key of the
other with its form. Both may be one file.

Of whatever files an identity is read, the file of certificates was read to its end without a fault,
and the chain is all of its certificates, at least one. If it has a fault anywhere or no
certificate, the error is about the certificates, whatever the other file is. So behind any pieces a
begin line without a label, a section whose text is no base64 and one that nothing ends give an
error, which says what is wrong there. -/
theorem ofPem_whole_chain :
    (∀ (e e' : LineEnd) (certFile keyFile : List Piece) (chain : List Bytes) (key : PrivateKey)
      (before after : List Section), chain ≠ [] →
      ((contents certFile).filter fun s => s.kind = .certificate) =
        chain.map (Section.mk .certificate) →
      contents keyFile = before ++ ⟨key.form.kind, key.der⟩ :: after →
      (∀ s ∈ before, ∀ form : KeyForm, s.kind ≠ form.kind) →
      ofPem (file e certFile) (file e' keyFile) = .ok ⟨chain, key⟩) ∧
    (∀ (certFile keyFile : Bytes) (identity : Identity), ofPem certFile keyFile = .ok identity →
      identity.chain ≠ [] ∧ ∃ found : List Section, sections certFile = found.map .ok ∧
        (found.filter fun s => s.kind = .certificate) =
          identity.chain.map (Section.mk .certificate)) ∧
    (∀ certFile : Bytes, (∀ found : List Section, sections certFile = found.map .ok →
        ∀ s ∈ found, s.kind ≠ .certificate) →
      ∃ message, ∀ keyFile, ofPem certFile keyFile =
        .error (.invalidCertificate ("provider certificate: " ++ message))) ∧
    ∀ (e : LineEnd) (front : List Piece) (fault : Fault) (keyFile : Bytes),
      ofPem (file e front ++ fault.text e) keyFile =
        .error (.invalidCertificate ("provider certificate: " ++ fault.error.message)) := by
  refine ⟨?_, ?_, ?_, ?_⟩
  · intro e e' certFile keyFile chain key before after hne hchain hkey hbefore
    have hcerts : sections (file e certFile) = (contents certFile).map .ok := by
      rw [← List.append_nil (file e certFile), Pem.sections_file]
      exact List.append_nil _
    have hkeys : sections (file e' keyFile) =
        before.map .ok ++ .ok ⟨key.form.kind, key.der⟩ :: after.map .ok := by
      rw [← List.append_nil (file e' keyFile), Pem.sections_file, hkey, List.map_append]
      exact List.append_nil _
    have hfound : chainOf (contents certFile) = chain := eq_chainOf hchain
    rw [ofPem_of_chain hcerts (hfound ▸ hne), hkeys, firstKey_of_split hbefore, hfound]
  · intro certFile keyFile identity hok
    rcases read_or_fault (sections certFile) with ⟨found, h⟩ | ⟨found, e, later, h⟩
    · by_cases hne : chainOf found = []
      · rw [ofPem_without_certificate h hne] at hok
        cases hok
      · rw [ofPem_of_chain h hne] at hok
        rcases hkey : firstKey (sections keyFile) with e | key
        · rw [hkey] at hok
          cases hok
        · rw [hkey] at hok
          obtain rfl : ⟨chainOf found, key⟩ = identity := Except.ok.inj hok
          exact ⟨hne, found, h, (map_chainOf found).symm⟩
    · rw [ofPem_fault h] at hok
      cases hok
  · intro certFile hno
    rcases read_or_fault (sections certFile) with ⟨found, h⟩ | ⟨found, e, later, h⟩
    · have hempty : chainOf found = [] := by
        rw [chainOf, List.filter_eq_nil_iff.2 fun s hs => by simpa using hno found h s hs]
        rfl
      exact ⟨"no CERTIFICATE block found", ofPem_without_certificate h hempty⟩
    · exact ⟨e.message, ofPem_fault h⟩
  · intro e front fault keyFile
    obtain ⟨later, hfault⟩ := Pem.sections_fault e fault
    have h : sections (file e front ++ fault.text e) =
        (contents front).map .ok ++ .error fault.error :: later := by
      rw [Pem.sections_file, hfault]
    exact ofPem_fault h keyFile

/-- Two certificates and a key in one file, with a comment and a section that is no base64. -/
def bundle : List Piece :=
  [.comment (textBytes "Bag Attributes") (by decide +kernel) (by decide +kernel),
    .known ⟨.certificate, [48, 3, 2, 1, 7]⟩,
    .other ⟨textBytes "NOTE", [textBytes "no base64!"], by decide +kernel, by decide +kernel,
      fun line hline => by
        rw [List.mem_singleton.1 hline]
        exact ⟨by decide +kernel, by decide +kernel⟩⟩ none (by decide +kernel),
    .known ⟨.ecPrivateKey, [48, 0]⟩,
    .known ⟨.certificate, [48]⟩]

/-- The one file as both files. -/
theorem ofPem_bundle :
    ofPem (file .crlf bundle) (file .crlf bundle) =
      .ok ⟨[[48, 3, 2, 1, 7], [48]], ⟨.sec1, [48, 0]⟩⟩ := by
  have hbefore : ∀ s ∈ [Section.mk .certificate [48, 3, 2, 1, 7]], ∀ form : KeyForm,
      s.kind ≠ form.kind := by
    intro s hs form
    rw [List.mem_singleton.1 hs]
    cases form <;> decide
  exact ofPem_whole_chain.1 .crlf .crlf bundle bundle [[48, 3, 2, 1, 7], [48]] ⟨.sec1, [48, 0]⟩
    [⟨.certificate, [48, 3, 2, 1, 7]⟩] [⟨.certificate, [48]⟩] (by decide) rfl rfl hbefore

end Identity

end TokenFeedback
