import Cryptoki.Proofs.Mechanism.IvBuffers
import Cryptoki.Proofs.Session.FailFast

/-! Errors about lengths: what they say of the length that was given, and of those that may be. -/
namespace Cryptoki

variable {field : LengthField} {expected actual : Nat}

/-- What is given with lengths that are checked: the parts of a block of parameters, or a buffer and
the offset to write from. -/
inductive Sized where
  | randomData (client server : Bytes)
  | keyMaterial (ivBits : Word) (returned : ReturnedKeys)
  | cbcEncryptData (iv : Bytes)
  | gcm (iv : Bytes) (tagBits : Word)
  | ccm (nonce : Bytes) (macLength : Word)
  | output (buffer : Bytes) (offset : Nat)

/-- How many of what is given make one of what is told: only the length of a tag is given in bits and
told in bytes. -/
def LengthField.unit : LengthField → Nat
  | .gcmTag => 8
  | _ => 1

namespace Sized

/-- The length that is given for a field. -/
def given : Sized → LengthField → Nat
  | .randomData client _, .clientRandom => client.length
  | .randomData _ server, .serverRandom => server.length
  | .keyMaterial ivBits _, .ivSizeInBits => ivBits.toNat
  | .keyMaterial _ returned, .clientIvBuffer => returned.clientIv.length
  | .keyMaterial _ returned, .serverIvBuffer => returned.serverIv.length
  | .cbcEncryptData iv, .cbcEncryptDataIv => iv.length
  | .gcm _ tagBits, .gcmTag => tagBits.toNat
  | .gcm iv _, .gcmIv => iv.length
  | .ccm nonce _, .ccmNonce => nonce.length
  | .ccm _ macLength, .ccmMac => macLength.toNat
  | .output _ offset, .outputOffset => offset
  | _, _ => 0

/-- The lengths in the range of a field; any, where there is no such field. -/
def Admits : Sized → LengthField → Nat → Prop
  | .randomData _ _, .clientRandom, n => 0 < n
  | .randomData _ _, .serverRandom, n => 0 < n
  | .keyMaterial _ _, .ivSizeInBits, n => 8 ∣ n
  | .keyMaterial ivBits _, .clientIvBuffer, n => n = ivBits.toNat / 8
  | .keyMaterial ivBits _, .serverIvBuffer, n => n = ivBits.toNat / 8
  | .cbcEncryptData _, .cbcEncryptDataIv, n => n = 8 ∨ n = 16
  | .gcm _ _, .gcmTag, n => 8 ∣ n ∧ n ≤ 128
  | .gcm _ _, .gcmIv, n => 0 < n
  | .ccm _ _, .ccmNonce, n => 7 ≤ n ∧ n ≤ 13
  | .ccm _ _, .ccmMac, n => 2 ∣ n ∧ 4 ≤ n ∧ n ≤ 16
  | .output buffer _, .outputOffset, n => n ≤ buffer.length
  | _, _, _ => True

/-- The calls that check lengths, and an error that one of them gave. -/
inductive Refused : Sized → Error → Prop where
  | randomData {client server : Bytes} {e : Error} (h : RandomData.make client server = .error e) :
    Refused (.randomData client server) e
  | keyMaterial {macBits keyBits ivBits : Word} {isExport : Bool} {random : RandomData}
    {returned : ReturnedKeys} {e : Error}
    (h : KeyMaterial.make macBits keyBits ivBits isExport random returned = .error e) :
    Refused (.keyMaterial ivBits returned) e
  | tls12KeyMaterial {macBits keyBits ivBits prf : Word} {random : RandomData}
    {returned : ReturnedKeys} {e : Error}
    (h : ParameterBlock.makeTls12KeyMaterial macBits keyBits ivBits random returned prf =
      .error e) : Refused (.keyMaterial ivBits returned) e
  | cbcEncryptData {iv data : Bytes} {e : Error} (h : CbcEncryptData.make iv data = .error e) :
    Refused (.cbcEncryptData iv) e
  | gcm {iv aad : Bytes} {tagBits : Word} {e : Error} (h : Gcm.make iv aad tagBits = .error e) :
    Refused (.gcm iv tagBits) e
  | ccm {dataLength macLength : Word} {nonce aad : Bytes} {e : Error}
    (h : Ccm.make dataLength nonce aad macLength = .error e) : Refused (.ccm nonce macLength) e
  | output {σ : Type} {token : Token σ} {t : σ} {s : Session} {call : Call} {buffer : Bytes}
    {offset : Nat} {e : Error} (ho : call.output? = some (buffer, offset))
    (h : (call.run token s t).1.1 = .error e) : Refused (.output buffer offset) e

/-- What an error about a length says: the one that is given is out of its range, the one that is
expected is in it, and the one that was met is the one that is given. -/
structure Tells (x : Sized) (field : LengthField) (expected actual : Nat) : Prop where
  outside : ¬ x.Admits field (x.given field)
  inside : x.Admits field (field.unit * expected)
  met : actual = x.given field / field.unit

/-- Where a length is told as it is given, it is not the expected one. -/
theorem Tells.ne {x : Sized} (h : x.Tells field expected actual) (hu : field.unit = 1) :
    expected ≠ actual := by
  rintro rfl
  have hmet := h.met
  rw [hu, Nat.div_one] at hmet
  have hinside := h.inside
  rw [hu, Nat.one_mul, hmet] at hinside
  exact h.outside hinside

/-- The longest tag is one of 16 bytes, so a length that is met as 16 bytes is a little more. -/
theorem Tells.tag_eq_iff {x : Sized} (h : x.Tells .gcmTag 16 actual) :
    16 = actual ↔ 128 < x.given .gcmTag ∧ x.given .gcmTag < 136 := by
  have hmet : actual = x.given .gcmTag / 8 := h.met
  constructor
  · intro heq
    have hne : x.given .gcmTag ≠ 128 := by
      intro hgiven
      apply h.outside
      rw [hgiven]
      exact h.inside
    omega
  · rintro ⟨hlow, hhigh⟩
    omega

/-- A length that is told as it was given has only to be compared with the range. -/
theorem tells_whole {x : Sized} (hunit : field.unit = 1) (hgiven : actual = x.given field)
    (houtside : ¬ x.Admits field actual) (hinside : x.Admits field expected) :
    x.Tells field expected actual ∧ field.unit = 1 := by
  subst hgiven
  refine ⟨⟨houtside, ?_, ?_⟩, hunit⟩
  · rwa [hunit, Nat.one_mul]
  · rw [hunit, Nat.div_one]

theorem tells_of_randomData {client server : Bytes}
    (h : RandomData.make client server = .error (.invalidParameterLength field expected actual)) :
    (randomData client server).Tells field expected actual ∧ field.unit = 1 := by
  unfold RandomData.make at h
  split at h
  · next hc =>
    cases h
    exact tells_whole rfl (congrArg List.length hc.symm) (Nat.lt_irrefl 0) (Nat.succ_pos 31)
  · split at h
    · next hs =>
      cases h
      exact tells_whole rfl (congrArg List.length hs.symm) (Nat.lt_irrefl 0) (Nat.succ_pos 31)
    · cases h

theorem tells_of_misfit {ivBits : Word} {returned : ReturnedKeys}
    (h : returned.Misfit ivBits (.invalidParameterLength field expected actual)) :
    (keyMaterial ivBits returned).Tells field expected actual ∧ field.unit = 1 := by
  cases h with
  | partialByte hpart =>
    -- A size that is rounded up to zero is still one of whole bytes.
    have hwhole : 8 ∣ wholeBits ivBits.toNat % UInt64.size :=
      (Nat.dvd_mod_iff (by decide)).mpr (wholeBits_isLeast _).1.1
    exact tells_whole rfl rfl hpart hwhole
  | client hwhole hc => exact tells_whole rfl rfl hc rfl
  | server hwhole hc hs => exact tells_whole rfl rfl hs rfl

theorem tells_of_cbcEncryptData {iv data : Bytes}
    (h : CbcEncryptData.make iv data = .error (.invalidParameterLength field expected actual)) :
    (cbcEncryptData iv).Tells field expected actual ∧ field.unit = 1 := by
  unfold CbcEncryptData.make at h
  split at h
  · cases h
  · next hiv =>
    cases h
    exact tells_whole rfl rfl hiv (.inr rfl)

/-- The length of a tag is told rounded down, which may make it the expected one. -/
theorem tells_of_gcm {iv aad : Bytes} {tagBits : Word}
    (h : Gcm.make iv aad tagBits = .error (.invalidParameterLength field expected actual)) :
    (gcm iv tagBits).Tells field expected actual ∧
      (field = .gcmTag ∧ expected = 16 ∨ field.unit = 1) := by
  unfold Gcm.make at h
  split at h
  · split at h
    · next hi =>
      cases h
      have htells : (gcm iv tagBits).Tells .gcmIv 12 0 ∧ LengthField.gcmIv.unit = 1 :=
        tells_whole rfl (congrArg List.length hi.symm) (Nat.lt_irrefl 0) (Nat.succ_pos 11)
      exact htells.imp_right .inr
    · cases h
  · next ht =>
    cases h
    have houtside : ¬ (8 ∣ tagBits.toNat ∧ tagBits.toNat ≤ 128) := by omega
    have hinside : 8 ∣ 8 * 16 ∧ 8 * 16 ≤ 128 := by decide
    exact ⟨⟨houtside, hinside, rfl⟩, .inl ⟨rfl, rfl⟩⟩

theorem clamp_mem {low high : Nat} (h : low ≤ high) (n : Nat) :
    low ≤ clamp low high n ∧ clamp low high n ≤ high := by
  unfold clamp
  omega

theorem tells_of_ccm {dataLength macLength : Word} {nonce aad : Bytes}
    (h : Ccm.make dataLength nonce aad macLength =
      .error (.invalidParameterLength field expected actual)) :
    (ccm nonce macLength).Tells field expected actual ∧ field.unit = 1 := by
  unfold Ccm.make at h
  split at h
  · split at h
    · cases h
    · next hmac =>
      cases h
      obtain ⟨hlow, hhigh⟩ := clamp_mem (show 4 ≤ 16 by decide) macLength.toNat
      have houtside : ¬ (2 ∣ macLength.toNat ∧ 4 ≤ macLength.toNat ∧ macLength.toNat ≤ 16) := by
        omega
      refine tells_whole rfl rfl houtside ⟨Nat.dvd_mul_left _ _, ?_, ?_⟩ <;> omega
  · next hnonce =>
    cases h
    exact tells_whole rfl rfl hnonce (clamp_mem (by decide) nonce.length)

/-- Of the calls that write to a buffer, the one error about a length is that of the offset. -/
theorem tells_of_writeFrom {direction : Direction} {last : Bool} {offset : Nat}
    {call : Handle → Bytes → Talk Delivery} {scene after : Scene Bytes} {es : List Exchange}
    (h : (Action.writeFrom direction last offset call).Goes scene es
      (.error (.invalidParameterLength field expected actual)) after) :
    (output scene.subject offset).Tells field expected actual ∧ field.unit = 1 := by
  rcases Action.writeFrom_cases h with ⟨hbeyond, -, he, -⟩ | ⟨-, -, -, he, -⟩ |
    ⟨-, -, delivery, settled, -, rfl, he, -⟩
  · cases he
    exact tells_whole rfl rfl (Nat.not_le.mpr hbeyond) (Nat.le_refl _)
  · cases he
  · unfold Action.settleWrite at he
    split at he
    · split at he <;> cases he
    · cases he

theorem tells_of_cipherUpdate {direction : Direction} {input : Bytes} {offset : Nat}
    {scene after : Scene Bytes} {es : List Exchange}
    (h : (Action.cipherUpdate direction input offset).Goes scene es
      (.error (.invalidParameterLength field expected actual)) after) :
    (output scene.subject offset).Tells field expected actual ∧ field.unit = 1 :=
  tells_of_writeFrom h

theorem tells_of_cipherFinal {direction : Direction} {offset : Nat} {scene after : Scene Bytes}
    {es : List Exchange}
    (h : (Action.cipherFinal direction offset).Goes scene es
      (.error (.invalidParameterLength field expected actual)) after) :
    (output scene.subject offset).Tells field expected actual ∧ field.unit = 1 :=
  tells_of_writeFrom h

theorem tells_of_output {σ : Type} {token : Token σ} {t : σ} {s : Session} {call : Call}
    {buffer : Bytes} {offset : Nat} (ho : call.output? = some (buffer, offset))
    (h : (call.run token s t).1.1 = .error (.invalidParameterLength field expected actual)) :
    (output buffer offset).Tells field expected actual ∧ field.unit = 1 := by
  obtain ⟨⟨⟨outcome, after⟩, es, u⟩, hrun⟩ : ∃ r, call.run token s t = r := ⟨_, rfl⟩
  rw [hrun] at h
  obtain rfl : outcome = .error (.invalidParameterLength field expected actual) := h
  have hgoes : call.action.Goes ⟨s, call.subject⟩ es _ after := (Talk.run_eq_iff.mp hrun).1
  cases call with
  | cipherUpdate direction input b o =>
    cases ho
    exact tells_of_cipherUpdate hgoes
  | cipherFinal direction b o =>
    cases ho
    exact tells_of_cipherFinal hgoes
  | _ => cases ho

/-- What each of the calls says. -/
theorem Refused.tells {x : Sized} (h : x.Refused (.invalidParameterLength field expected actual)) :
    x.Tells field expected actual ∧ (field = .gcmTag ∧ expected = 16 ∨ field.unit = 1) := by
  cases h with
  | randomData h => exact (tells_of_randomData h).imp_right .inr
  | keyMaterial h => exact (tells_of_misfit (KeyMaterial.make_eq_error_iff.mp h)).imp_right .inr
  | tls12KeyMaterial h =>
    -- The key material of both handshakes is checked in the same way.
    have hfailure := Outcome.failure?_eq_some_iff.mpr h
    rw [ParameterBlock.makeTls12KeyMaterial, Outcome.failure?_map,
      Outcome.failure?_eq_some_iff] at hfailure
    exact (tells_of_misfit (KeyMaterial.make_eq_error_iff.mp hfailure)).imp_right .inr
  | cbcEncryptData h => exact (tells_of_cbcEncryptData h).imp_right .inr
  | gcm h => exact tells_of_gcm h
  | ccm h => exact (tells_of_ccm h).imp_right .inr
  | output ho h => exact (tells_of_output ho h).imp_right .inr

/-- A length is only told to be wrong where it is out of its range, and the one that is told to be
expected is in it; so the two differ, where a length is told as it was given. A tag is given in bits
and told in bytes, rounded down: of a tag of one to seven bits more than it may have, it is said that
16 bytes were expected and 16 were met. There is no other such error. -/
theorem refused_truthful {x : Sized}
    (h : x.Refused (.invalidParameterLength field expected actual)) :
    ¬ x.Admits field (x.given field) ∧ x.Admits field (field.unit * expected) ∧
      actual = x.given field / field.unit ∧
      (expected = actual ↔
        field = .gcmTag ∧ 128 < x.given .gcmTag ∧ x.given .gcmTag < 136) := by
  obtain ⟨htells, ⟨rfl, rfl⟩ | hunit⟩ := h.tells
  · refine ⟨htells.outside, htells.inside, htells.met, ?_⟩
    rw [htells.tag_eq_iff]
    exact (and_iff_right rfl).symm
  · refine ⟨htells.outside, htells.inside, htells.met, ?_⟩
    constructor
    · intro heq
      exact absurd heq (htells.ne hunit)
    · rintro ⟨rfl, -⟩
      cases hunit

theorem refused_truthful_nonce :
    Ccm.make 5 [1, 2, 3, 4, 5, 6] [] 8 = .error (.invalidParameterLength .ccmNonce 7 6) ∧
      ¬ (ccm [1, 2, 3, 4, 5, 6] 8).Admits .ccmNonce 6 ∧ (7 : Nat) ≠ 6 := by
  have hmake : Ccm.make 5 [1, 2, 3, 4, 5, 6] [] 8 =
      .error (.invalidParameterLength .ccmNonce 7 6) := rfl
  obtain ⟨houtside, -, -, heq⟩ := refused_truthful (.ccm hmake)
  refine ⟨hmake, houtside, ?_⟩
  rw [Ne, heq]
  rintro ⟨hfield, -⟩
  cases hfield

/-- A tag of a bit too many: the length that is met is the one that is expected. -/
theorem tag_told_as_expected :
    Gcm.make [1, 2, 3, 4, 5, 6, 7, 8, 9, 10, 11, 12] [] 129 =
      .error (.invalidParameterLength .gcmTag 16 16) := rfl

end Sized

end Cryptoki
