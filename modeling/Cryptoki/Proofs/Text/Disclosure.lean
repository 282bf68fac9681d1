import Mathlib.Data.Option.Basic
import Cryptoki.Attribute.Printer
import Cryptoki.Mechanism.Printer
import Cryptoki.Object.Readout
import Cryptoki.Proofs.Text.Preview

/-! What the texts of attributes, objects, native values and mechanisms disclose of the byte strings
in them: no more than a preview does, at any depth. -/
namespace Cryptoki

mutual

/-- The same values, but for byte strings, which look alike. -/
inductive AttributeValue.LooksLike : AttributeValue → AttributeValue → Prop where
  | same (v : AttributeValue) : AttributeValue.LooksLike v v
  | bytes {a b : Bytes} (h : a.LooksLike b) : AttributeValue.LooksLike (.bytes a) (.bytes b)
  | attributes {as bs : List Attribute} (h : Attribute.LookAlike as bs) :
    AttributeValue.LooksLike (.attributes as) (.attributes bs)

inductive AttributeState.LooksLike : AttributeState → AttributeState → Prop where
  | same (s : AttributeState) : AttributeState.LooksLike s s
  | value {v w : AttributeValue} (h : AttributeValue.LooksLike v w) :
    AttributeState.LooksLike (.value v) (.value w)

inductive Attribute.LooksLike : Attribute → Attribute → Prop where
  | intro (t : AttributeType) {s r : AttributeState} (h : AttributeState.LooksLike s r) :
    Attribute.LooksLike ⟨t, s⟩ ⟨t, r⟩

/-- One after the other. -/
inductive Attribute.LookAlike : List Attribute → List Attribute → Prop where
  | nil : Attribute.LookAlike [] []
  | cons {a b : Attribute} {as bs : List Attribute} (h : Attribute.LooksLike a b)
    (hs : Attribute.LookAlike as bs) : Attribute.LookAlike (a :: as) (b :: bs)

end

mutual

theorem AttributeValue.LooksLike.text {v w : AttributeValue} : v.LooksLike w → v.text = w.text
  | .same v => rfl
  | .bytes h => by
    rw [AttributeValue.text, AttributeValue.text, preview_eq_iff.mpr h]
  | .attributes h => by
    rw [AttributeValue.text, AttributeValue.text, h.textList]

theorem AttributeState.LooksLike.text {s r : AttributeState} : s.LooksLike r → s.text = r.text
  | .same s => rfl
  | .value h => by
    rw [AttributeState.text, AttributeState.text, h.text]

theorem Attribute.LooksLike.text {a b : Attribute} : a.LooksLike b → a.text = b.text
  | .intro t h => by
    rw [Attribute.text, Attribute.text, h.text]

theorem Attribute.LookAlike.textList {as bs : List Attribute} :
    Attribute.LookAlike as bs → Attribute.textList as = Attribute.textList bs
  | .nil => rfl
  | .cons h hs => by
    rw [Attribute.textList, Attribute.textList, h.text, hs.textList]

end

/-- Attributes that look alike are absent together. -/
theorem Attribute.LooksLike.absent_iff {a b : Attribute} (h : a.LooksLike b) :
    a.state = .absent ↔ b.state = .absent := by
  obtain ⟨t, ⟨s⟩ | h⟩ := h
  · rfl
  · simp

theorem Attribute.LookAlike.shown {as bs : List Attribute} (h : Attribute.LookAlike as bs) :
    (as.filter fun a => a.state ≠ .absent).map Attribute.text =
      (bs.filter fun b => b.state ≠ .absent).map Attribute.text := by
  cases h with
  | nil => rfl
  | @cons a b as bs h hs =>
    have hrest := hs.shown
    by_cases ha : a.state = .absent
    · simpa [ha, h.absent_iff.mp ha] using hrest
    · simpa [ha, mt h.absent_iff.mpr ha, h.text] using hrest

/-- Objects of one variant, at the same place in life, whose attributes look alike. -/
structure Object.LooksLike (o p : Object) : Prop where
  variant : o.variant = p.variant
  state : o.state = p.state
  attributes : Attribute.LookAlike o.attributes p.attributes

theorem Object.LooksLike.debug {o p : Object} (h : o.LooksLike p) : o.debug = p.debug := by
  rw [Object.debug, Object.debug, h.variant, h.state, h.attributes.shown]

theorem Object.LooksLike.text {o p : Object} (h : o.LooksLike p) : o.text = p.text := by
  have hheading : o.heading = p.heading := by
    rw [Object.heading, Object.heading, h.variant, h.state]
  have hlines : o.attributes.map Attribute.text = p.attributes.map Attribute.text := by
    rw [← Attribute.textList_eq_map, ← Attribute.textList_eq_map, h.attributes.textList]
  have hline : ∀ as : List Attribute, (as.map fun a => "  " ++ a.text ++ "\n") =
      (as.map Attribute.text).map fun line => "  " ++ line ++ "\n" := by
    intro as
    simp
  rw [Object.text, Object.text, hheading, hline, hlines, ← hline]

mutual

inductive WireValue.LooksLike : WireValue → WireValue → Prop where
  | bytes {a b : Bytes} (h : a.LooksLike b) : WireValue.LooksLike (.bytes a) (.bytes b)
  | nested {es fs : List WireAttribute} (h : WireAttribute.LookAlike es fs) :
    WireValue.LooksLike (.nested es) (.nested fs)

inductive WireAttribute.LooksLike : WireAttribute → WireAttribute → Prop where
  | intro (t : Word) {v w : WireValue} (h : WireValue.LooksLike v w) :
    WireAttribute.LooksLike ⟨t, v⟩ ⟨t, w⟩

inductive WireAttribute.LookAlike : List WireAttribute → List WireAttribute → Prop where
  | nil : WireAttribute.LookAlike [] []
  | cons {e f : WireAttribute} {es fs : List WireAttribute} (h : WireAttribute.LooksLike e f)
    (hs : WireAttribute.LookAlike es fs) : WireAttribute.LookAlike (e :: es) (f :: fs)

end

mutual

theorem WireValue.LooksLike.debug {v w : WireValue} : v.LooksLike w → v.debug = w.debug
  | .bytes h => by
    rw [WireValue.debug, WireValue.debug, preview_eq_iff.mpr h]
  | .nested h => by
    rw [WireValue.debug, WireValue.debug, h.debugList]

theorem WireAttribute.LooksLike.debug {e f : WireAttribute} : e.LooksLike f → e.debug = f.debug
  | .intro t h => by
    rw [WireAttribute.debug, WireAttribute.debug, h.debug]

theorem WireAttribute.LookAlike.debugList {es fs : List WireAttribute} :
    WireAttribute.LookAlike es fs → WireAttribute.debugList es = WireAttribute.debugList fs
  | .nil => rfl
  | .cons h hs => by
    rw [WireAttribute.debugList, WireAttribute.debugList, h.debug, hs.debugList]

end

inductive RawValue.LooksLike : RawValue → RawValue → Prop where
  | bytes {a b : Bytes} (h : a.LooksLike b) : LooksLike (.bytes a) (.bytes b)
  | nested {es fs : List WireAttribute} (h : WireAttribute.LookAlike es fs) :
    LooksLike (.nested es) (.nested fs)
  | length (n : Word) : LooksLike (.length n) (.length n)

theorem RawValue.LooksLike.debug {v w : RawValue} (h : v.LooksLike w) : v.debug = w.debug := by
  cases h with
  | bytes h => rw [RawValue.debug, RawValue.debug, preview_eq_iff.mpr h]
  | nested h =>
    rw [RawValue.debug, RawValue.debug, ← WireAttribute.debugList_eq_map,
      ← WireAttribute.debugList_eq_map, h.debugList]
  | length n => rfl

structure Readout.LooksLike (r q : Readout) : Prop where
  type : r.type = q.type
  status : r.status = q.status
  value : r.value.LooksLike q.value

theorem Readout.LooksLike.debug {r q : Readout} (h : r.LooksLike q) : r.debug = q.debug := by
  rw [Readout.debug, Readout.debug, h.type, h.status, h.value.debug]

structure RandomData.LooksLike (r q : RandomData) : Prop where
  client : r.client.LooksLike q.client
  server : r.server.LooksLike q.server

theorem RandomData.LooksLike.debug {r q : RandomData} (h : r.LooksLike q) : r.debug = q.debug := by
  rw [RandomData.debug, RandomData.debug, preview_eq_iff.mpr h.client, preview_eq_iff.mpr h.server]

structure MasterKeyDerivation.LooksLike (p q : MasterKeyDerivation) : Prop where
  random : p.random.LooksLike q.random
  version : p.version = q.version

theorem MasterKeyDerivation.LooksLike.fields {p q : MasterKeyDerivation} (h : p.LooksLike q) :
    p.fields = q.fields := by
  rw [MasterKeyDerivation.fields, MasterKeyDerivation.fields, h.random.debug, h.version]

structure ReturnedKeys.LooksLike (r q : ReturnedKeys) : Prop where
  clientMac : r.clientMac = q.clientMac
  serverMac : r.serverMac = q.serverMac
  clientKey : r.clientKey = q.clientKey
  serverKey : r.serverKey = q.serverKey
  clientIv : r.clientIv.LooksLike q.clientIv
  serverIv : r.serverIv.LooksLike q.serverIv

theorem ReturnedKeys.LooksLike.debug {r q : ReturnedKeys} (h : r.LooksLike q) :
    r.debug = q.debug := by
  simp only [ReturnedKeys.debug, h.clientMac, h.serverMac, h.clientKey, h.serverKey,
    preview_eq_iff.mpr h.clientIv, preview_eq_iff.mpr h.serverIv]

structure KeyMaterial.LooksLike (p q : KeyMaterial) : Prop where
  macBits : p.macBits = q.macBits
  keyBits : p.keyBits = q.keyBits
  ivBits : p.ivBits = q.ivBits
  isExport : p.isExport = q.isExport
  random : p.random.LooksLike q.random
  returned : p.returned.LooksLike q.returned

theorem KeyMaterial.LooksLike.fields {p q : KeyMaterial} (h : p.LooksLike q) :
    p.fields = q.fields := by
  simp only [KeyMaterial.fields, h.macBits, h.keyBits, h.ivBits, h.isExport, h.random.debug,
    h.returned.debug]

structure CbcEncryptData.LooksLike (p q : CbcEncryptData) : Prop where
  iv : p.iv.LooksLike q.iv
  data : p.data.LooksLike q.data

structure RsaOaep.LooksLike (p q : RsaOaep) : Prop where
  hash : p.hash = q.hash
  mgf : p.mgf = q.mgf
  source : Option.Rel Bytes.LooksLike p.source q.source

structure Gcm.LooksLike (p q : Gcm) : Prop where
  iv : p.iv.LooksLike q.iv
  aad : p.aad.LooksLike q.aad
  tagBits : p.tagBits = q.tagBits

structure Ccm.LooksLike (p q : Ccm) : Prop where
  dataLength : p.dataLength = q.dataLength
  nonce : p.nonce.LooksLike q.nonce
  aad : p.aad.LooksLike q.aad
  macLength : p.macLength = q.macLength

/-- Blocks of one family, and the same but for their byte strings. -/
inductive ParameterBlock.LooksLike : ParameterBlock → ParameterBlock → Prop where
  | version (v : Version) : LooksLike (.version v) (.version v)
  | randomData {r q : RandomData} (h : r.LooksLike q) : LooksLike (.randomData r) (.randomData q)
  | masterKeyDerive {p q : MasterKeyDerivation} (h : p.LooksLike q) :
    LooksLike (.masterKeyDerive p) (.masterKeyDerive q)
  | tls12MasterKeyDerive {p q : MasterKeyDerivation} (prf : Word) (h : p.LooksLike q) :
    LooksLike (.tls12MasterKeyDerive p prf) (.tls12MasterKeyDerive q prf)
  | keyMaterial {p q : KeyMaterial} (h : p.LooksLike q) :
    LooksLike (.keyMaterial p) (.keyMaterial q)
  | tls12KeyMaterial {p q : KeyMaterial} (prf : Word) (h : p.LooksLike q) :
    LooksLike (.tls12KeyMaterial p prf) (.tls12KeyMaterial q prf)
  | initializationVector {a b : Bytes} (h : a.LooksLike b) :
    LooksLike (.initializationVector a) (.initializationVector b)
  | cbcEncryptData {p q : CbcEncryptData} (h : p.LooksLike q) :
    LooksLike (.cbcEncryptData p) (.cbcEncryptData q)
  | rsaOaep {p q : RsaOaep} (h : p.LooksLike q) : LooksLike (.rsaOaep p) (.rsaOaep q)
  | rsaPss (p : RsaPss) : LooksLike (.rsaPss p) (.rsaPss p)
  | gcm {p q : Gcm} (h : p.LooksLike q) : LooksLike (.gcm p) (.gcm q)
  | ccm {p q : Ccm} (h : p.LooksLike q) : LooksLike (.ccm p) (.ccm q)

theorem map_of_rel {α β : Type} {R : α → α → Prop} {f : α → β} {x y : Option α}
    (h : Option.Rel R x y) (hf : ∀ a b, R a b → f a = f b) : x.map f = y.map f := by
  cases h with
  | some h => exact congrArg some (hf _ _ h)
  | none => rfl

theorem ParameterBlock.LooksLike.debug {b c : ParameterBlock} (h : b.LooksLike c) :
    b.debug = c.debug := by
  have hpreview : ∀ {x y : Bytes}, x.LooksLike y → preview x = preview y := preview_eq_iff.mpr
  cases h with
  | version | rsaPss => rfl
  | randomData h => simp only [ParameterBlock.debug, content, family, h.debug]
  | masterKeyDerive h | tls12MasterKeyDerive prf h | keyMaterial h | tls12KeyMaterial prf h =>
    simp only [ParameterBlock.debug, content, family, h.fields]
  | initializationVector h => simp only [ParameterBlock.debug, content, family, hpreview h]
  | cbcEncryptData h =>
    simp only [ParameterBlock.debug, content, family, hpreview h.iv, hpreview h.data]
  | rsaOaep h =>
    have hsource := map_of_rel h.source fun _ _ => hpreview
    simp only [ParameterBlock.debug, content, family, h.hash, h.mgf, hsource]
  | gcm h =>
    simp only [ParameterBlock.debug, content, family, hpreview h.iv, hpreview h.aad, h.tagBits]
  | ccm h =>
    simp only [ParameterBlock.debug, content, family, h.dataLength, hpreview h.nonce,
      hpreview h.aad, h.macLength]

structure Mechanism.LooksLike (m n : Mechanism) : Prop where
  id : m.id = n.id
  parameters : Option.Rel ParameterBlock.LooksLike m.parameters n.parameters

theorem Mechanism.LooksLike.debug {m n : Mechanism} (h : m.LooksLike n) : m.debug = n.debug := by
  have hblock := map_of_rel h.parameters fun _ _ => ParameterBlock.LooksLike.debug
  rw [Mechanism.debug, Mechanism.debug, h.id, hblock]

theorem Mechanism.LooksLike.text {m n : Mechanism} (h : m.LooksLike n) : m.text = n.text := by
  have hblock := h.parameters
  rw [Mechanism.text, Mechanism.text, h.id]
  generalize m.parameters = x at hblock
  generalize n.parameters = y at hblock
  cases hblock with
  | some h => simp only [h.debug]
  | none => rfl

/-- Of a byte string, a text tells its length and its first eight bytes, wherever in the value the
byte string is. -/
theorem looksLike_same_texts :
    (∀ a b : Bytes, a.LooksLike b ↔ preview a = preview b) ∧
    (∀ a b : Attribute, a.LooksLike b → a.text = b.text) ∧
    (∀ o p : Object, o.LooksLike p → o.debug = p.debug ∧ o.text = p.text) ∧
    (∀ v w : WireValue, v.LooksLike w → v.debug = w.debug) ∧
    (∀ e f : WireAttribute, e.LooksLike f → e.debug = f.debug) ∧
    (∀ v w : RawValue, v.LooksLike w → v.debug = w.debug) ∧
    (∀ r q : Readout, r.LooksLike q → r.debug = q.debug) ∧
    (∀ b c : ParameterBlock, b.LooksLike c → b.debug = c.debug) ∧
    (∀ m n : Mechanism, m.LooksLike n → m.debug = n.debug ∧ m.text = n.text) := by
  refine ⟨fun a b => preview_eq_iff.symm, fun a b h => h.text, fun o p h => ⟨h.debug, h.text⟩,
    fun v w h => h.debug, fun e f h => h.debug, fun v w h => h.debug, fun r q h => h.debug,
    fun b c h => h.debug, fun m n h => ⟨h.debug, h.text⟩⟩

/-- A buffer whose last byte its preview leaves out. -/
def endingIn (b : UInt8) : Bytes := [1, 2, 3, 4, 5, 6, 7, 8, b]

theorem endingIn_looksLike (b c : UInt8) : (endingIn b).LooksLike (endingIn c) := ⟨rfl, rfl⟩

/-- An attribute with the buffer in an array inside an array. -/
def nestedAttribute (b : UInt8) : Attribute :=
  ⟨.wrapTemplate, .value (.attributes
    [⟨.unwrapTemplate, .value (.attributes [⟨.value, .value (.bytes (endingIn b))⟩])⟩])⟩

def nestedObject (b : UInt8) : Object :=
  ⟨.data, .template, [⟨.label, .null⟩, nestedAttribute b]⟩

def nestedWire (b : UInt8) : WireAttribute :=
  ⟨0x40000211, .nested [⟨0x11, .bytes (endingIn b)⟩]⟩

def nestedReadout (b : UInt8) : Readout := ⟨0x40000211, Status.ok, .nested [nestedWire b]⟩

def maskedMechanism (b : UInt8) : Mechanism := ⟨9, some (.rsaOaep ⟨0x220, 1, some (endingIn b)⟩)⟩

theorem nestedAttribute_looksLike (b c : UInt8) :
    (nestedAttribute b).LooksLike (nestedAttribute c) := by
  have hbytes := AttributeValue.LooksLike.bytes (endingIn_looksLike b c)
  have hinner := Attribute.LooksLike.intro .value (.value hbytes)
  have hentries := AttributeValue.LooksLike.attributes (.cons hinner .nil)
  have houter := Attribute.LooksLike.intro .unwrapTemplate (.value hentries)
  exact .intro .wrapTemplate (.value (.attributes (.cons houter .nil)))

theorem nestedWire_looksLike (b c : UInt8) : (nestedWire b).LooksLike (nestedWire c) := by
  have hinner := WireAttribute.LooksLike.intro 0x11 (.bytes (endingIn_looksLike b c))
  exact .intro _ (.nested (.cons hinner .nil))

theorem maskedMechanism_looksLike (b c : UInt8) :
    (maskedMechanism b).LooksLike (maskedMechanism c) :=
  ⟨rfl, .some (.rsaOaep ⟨rfl, rfl, .some (endingIn_looksLike b c)⟩)⟩

theorem looksLike_same_texts_endings :
    (nestedAttribute 0 ≠ nestedAttribute 1 ∧
      (nestedAttribute 0).text = (nestedAttribute 1).text) ∧
    (nestedObject 0 ≠ nestedObject 1 ∧ (nestedObject 0).debug = (nestedObject 1).debug ∧
      (nestedObject 0).text = (nestedObject 1).text) ∧
    (nestedWire 0 ≠ nestedWire 1 ∧ (nestedWire 0).value.debug = (nestedWire 1).value.debug ∧
      (nestedWire 0).debug = (nestedWire 1).debug) ∧
    (nestedReadout 0 ≠ nestedReadout 1 ∧
      (nestedReadout 0).value.debug = (nestedReadout 1).value.debug ∧
      (nestedReadout 0).debug = (nestedReadout 1).debug) ∧
    (maskedMechanism 0 ≠ maskedMechanism 1 ∧
      ParameterBlock.debug (.initializationVector (endingIn 0)) =
        ParameterBlock.debug (.initializationVector (endingIn 1)) ∧
      (maskedMechanism 0).debug = (maskedMechanism 1).debug ∧
      (maskedMechanism 0).text = (maskedMechanism 1).text) := by
  obtain ⟨-, hattribute, hobject, hvalue, hwire, hraw, hreadout, hblock, hmechanism⟩ :=
    looksLike_same_texts
  have hnested := nestedAttribute_looksLike 0 1
  have hentry := nestedWire_looksLike 0 1
  have hentries : RawValue.LooksLike (nestedReadout 0).value (nestedReadout 1).value :=
    .nested (.cons hentry .nil)
  have hlabelled : Object.LooksLike (nestedObject 0) (nestedObject 1) :=
    ⟨rfl, rfl, .cons (.intro .label (.same .null)) (.cons hnested .nil)⟩
  have hlike : WireValue.LooksLike (nestedWire 0).value (nestedWire 1).value := by
    have hinner := WireAttribute.LooksLike.intro 0x11 (.bytes (endingIn_looksLike 0 1))
    exact .nested (.cons hinner .nil)
  have hne : nestedAttribute 0 ≠ nestedAttribute 1 := by simp [nestedAttribute, endingIn]
  refine ⟨⟨hne, hattribute _ _ hnested⟩, ⟨by simpa [nestedObject] using hne, hobject _ _ hlabelled⟩,
    ⟨by decide, hvalue _ _ hlike, hwire _ _ hentry⟩,
    ⟨by decide, hraw _ _ hentries, hreadout _ _ ⟨rfl, rfl, hentries⟩⟩,
    ⟨by decide, hblock _ _ (.initializationVector (endingIn_looksLike 0 1)), ?_⟩⟩
  exact hmechanism _ _ (maskedMechanism_looksLike 0 1)

end Cryptoki
