import Groundwork.Proofs.Action
import Groundwork.Proofs.Json.Written
import Groundwork.Reset

/-! The seeds in the body of a request. What is kept for a seed is read again as the document that the body
gave for it, and it passes the check of a seed exactly if that is an object. -/
namespace Groundwork.ResetRequest

open Json

variable {body : ByteArray} {request : ResetRequest} {name : String} {document r : Raw}

/-- The fields of a request. -/
def fieldNames : List String := ["seeds", "wipe_existing_seeds", "allow_tpm_reset_failure"]

/-- Which document a record of a request has for a seed: the last one under its name. -/
def HoldsSeed (r : Raw) (name : String) (document : Raw) : Prop :=
  ∃ members, FieldOf fieldNames "seeds" r (.object members) ∧ LastOf name document members

/-- Which document the body of a request gives for a seed. -/
def Gives (body : ByteArray) (name : String) (document : Raw) : Prop :=
  ∃ r, Raw.parse body.toList = .ok r ∧ HoldsSeed r name document

theorem ofJson_eq_ok : ofJson body = .ok request ↔
    ∃ r, Raw.parse body.toList = .ok r ∧ ofRaw r = .ok request :=
  mapError_eq_ok.trans bind_eq_ok

theorem ofRaw_eq_ok (h : ofRaw r = .ok request) : ∃ fs seeds, Fields.ofRaw fieldNames r = .ok fs ∧
    fs.defaulting "seeds" .empty (·.dictionary (Value.ofRaw seedDepth)) = .ok seeds ∧
    request.seeds = seeds.mapValues fun v => v.encode.toByteArray := by
  obtain ⟨fs, hfs, h⟩ := bind_eq_ok.1 h
  obtain ⟨seeds, hseeds, h⟩ := bind_eq_ok.1 h
  obtain ⟨wipeSeeds, -, h⟩ := bind_eq_ok.1 h
  obtain ⟨allowChipFailure, -, h⟩ := bind_eq_ok.1 h
  cases h
  exact ⟨fs, seeds, hfs, hseeds, rfl⟩

/-- The values of the seeds are those of the documents that the record has for them. -/
theorem exists_seeds (h : ofRaw r = .ok request) : ∃ seeds : Dict Value,
    (request.seeds = seeds.mapValues fun v => v.encode.toByteArray) ∧
    (∀ name v, seeds.get? name = some v ↔
      ∃ document, HoldsSeed r name document ∧ Value.ofRaw seedDepth document = .ok v) ∧
    ∀ name document, HoldsSeed r name document → ∃ v, Value.ofRaw seedDepth document = .ok v := by
  obtain ⟨fs, seeds, hfs, hseeds, hrequest⟩ := ofRaw_eq_ok h
  have hfield (value : Raw) : fs.get? "seeds" = some value ↔ FieldOf fieldNames "seeds" r value :=
    Fields.get?_eq_some_iff (by decide) (by decide) hfs
  refine ⟨seeds, hrequest, ?_⟩
  rcases Fields.defaulting_eq_ok.1 hseeds with ⟨value, hvalue, hdictionary⟩ | ⟨hnone, rfl⟩
  · obtain ⟨members, -, hmembers, -⟩ := dictionary_eq_ok.1 hdictionary
    obtain ⟨ms, rfl, -⟩ := members_eq_ok.1 hmembers
    have hholds (name : String) (document : Raw) :
        HoldsSeed r name document ↔ LastOf name document ms := by
      constructor
      · rintro ⟨ms', hms', hlast⟩
        cases hvalue.symm.trans ((hfield _).2 hms')
        exact hlast
      · exact fun hlast => ⟨ms, (hfield _).1 hvalue, hlast⟩
    simp only [hholds]
    exact ⟨fun name v => get?_dictionary hdictionary,
      fun name document hlast => exists_of_dictionary hdictionary hlast⟩
  · have hholds (name : String) (document : Raw) : ¬ HoldsSeed r name document := by
      rintro ⟨ms, hms, -⟩
      cases hnone.symm.trans ((hfield _).2 hms)
    refine ⟨fun name v => ?_, fun name document hseed => (hholds _ _ hseed).elim⟩
    constructor
    · intro hget
      cases hget
    · rintro ⟨document, hseed, -⟩
      exact (hholds _ _ hseed).elim

theorem validatePayload_eq_ok_iff {payload : ByteArray} {v : Value}
    (h : Value.parse payload.toList = .ok v) :
    Seed.validatePayload name payload = .ok () ↔ v.isObject = true := by
  rw [Seed.validatePayload, h]
  cases hobject : v.isObject <;> simp [hobject]

/-- Every seed that the body gives is kept, and nothing else. The payload is what is written for the value
that the body gave, and if its numbers are integers it is read as that value again. It then passes the check
of a seed exactly if the value is an object, which it is exactly if the document is one. -/
theorem payload_reads_back (h : ofJson body = .ok request) :
    (∀ name, name ∈ request.seeds.keys ↔ ∃ document, Gives body name document) ∧
    ∀ name document, Gives body name document →
      ∃ v payload, Value.ofRaw seedDepth document = .ok v ∧ request.seeds.get? name = some payload ∧
        v.encode = payload.toList ∧ (v.isObject = true ↔ ∃ members, document = .object members) ∧
        (document.Integral → Value.parse payload.toList = .ok v ∧
          (Seed.validatePayload name payload = .ok () ↔ v.isObject = true)) := by
  obtain ⟨r, hparse, hr⟩ := ofJson_eq_ok.1 h
  obtain ⟨seeds, hrequest, hget, haccepted⟩ := exists_seeds hr
  have hgives (name : String) (document : Raw) : Gives body name document ↔ HoldsSeed r name document := by
    constructor
    · rintro ⟨r', hparse', hseed⟩
      cases hparse.symm.trans hparse'
      exact hseed
    · exact fun hseed => ⟨r, hparse, hseed⟩
  simp only [hgives]
  refine ⟨fun name => ?_, fun name document hseed => ?_⟩
  · rw [Dict.mem_keys, hrequest]
    simp only [Dict.get?_mapValues, Option.map_eq_some_iff]
    constructor
    · rintro ⟨_, v, hv, -⟩
      obtain ⟨document, hseed, -⟩ := (hget name v).1 hv
      exact ⟨document, hseed⟩
    · rintro ⟨document, hseed⟩
      obtain ⟨v, hv⟩ := haccepted name document hseed
      exact ⟨_, v, (hget name v).2 ⟨document, hseed, hv⟩, rfl⟩
  · obtain ⟨v, hv⟩ := haccepted name document hseed
    have hstored := (hget name v).2 ⟨document, hseed, hv⟩
    refine ⟨v, v.encode.toByteArray, hv, ?_, (Bytes.toList_toByteArray _).symm,
      Value.isObject_of_ofRaw hv, fun hintegral => ?_⟩
    · rw [hrequest, Dict.get?_mapValues, hstored]
      rfl
    · have hread : Value.parse v.encode.toByteArray.toList = .ok v := by
        rw [Bytes.toList_toByteArray]
        exact ((hintegral.fits hv).mono (by decide)).parse_encode
      exact ⟨hread, validatePayload_eq_ok_iff hread⟩

/-- A body that gives two documents for one seed, the last with integers at both limits. -/
def twiceNamedBody : ByteArray :=
  "\x7b\"seeds\":\x7b\"dns\":1,\"dns\":\x7b\"ttl\":[-9223372036854775808,18446744073709551615]\x7d\x7d\x7d".toUTF8

/-- The document that it gives last. -/
def lastDocument : Raw :=
  .object [([116, 116, 108], .array
    [.number ⟨true, [57, 50, 50, 51, 51, 55, 50, 48, 51, 54, 56, 53, 52, 55, 55, 53, 56, 48, 56], [], none⟩,
      .number ⟨false, [49, 56, 52, 52, 54, 55, 52, 52, 48, 55, 51, 55, 48, 57, 53, 53, 49, 54, 49, 53], [],
        none⟩])]

theorem gives_lastDocument : Gives twiceNamedBody "dns" lastDocument := by
  have hbytes : twiceNamedBody.toList = [123, 34, 115, 101, 101, 100, 115, 34, 58, 123, 34, 100, 110, 115,
      34, 58, 49, 44, 34, 100, 110, 115, 34, 58, 123, 34, 116, 116, 108, 34, 58, 91, 45, 57, 50, 50, 51, 51,
      55, 50, 48, 51, 54, 56, 53, 52, 55, 55, 53, 56, 48, 56, 44, 49, 56, 52, 52, 54, 55, 52, 52, 48, 55, 51,
      55, 48, 57, 53, 53, 49, 54, 49, 53, 93, 125, 125, 125] := by
    decide +kernel
  have hparse : Raw.parse twiceNamedBody.toList = .ok (.object [([115, 101, 101, 100, 115],
      .object [([100, 110, 115], .number ⟨false, [49], [], none⟩), ([100, 110, 115], lastDocument)])]) := by
    rw [hbytes]
    rfl
  have hseeds : bodyText [115, 101, 101, 100, 115] = .ok "seeds" :=
    Action.eq_ok_of_toOption (by decide +kernel)
  have hname : bodyText [100, 110, 115] = .ok "dns" := Action.eq_ok_of_toOption (by decide +kernel)
  exact ⟨_, hparse, _, .member List.mem_cons_self hseeds, .later (.here hname (by simp))⟩

theorem integral_lastDocument : lastDocument.Integral := by
  refine .object fun m hm => ?_
  obtain rfl := List.mem_singleton.1 hm
  refine .array fun r hr => ?_
  rcases List.mem_pair.1 hr with rfl | rfl
  · exact .number ⟨rfl, rfl, by decide⟩
  · exact .number ⟨rfl, rfl, by decide⟩

theorem payload_reads_back_twiceNamedBody : ∃ request payload,
    ofJson twiceNamedBody = .ok request ∧ request.seeds.get? "dns" = some payload ∧
    Seed.validatePayload "dns" payload = .ok () := by
  have haccepted : (ofJson twiceNamedBody).toOption.isSome = true := by decide +kernel
  obtain ⟨request, hrequest⟩ := Option.isSome_iff_exists.1 haccepted
  have hbody := Action.eq_ok_of_toOption hrequest
  obtain ⟨v, payload, -, hpayload, -, hobject, hreads⟩ :=
    (payload_reads_back hbody).2 "dns" lastDocument gives_lastDocument
  obtain ⟨-, hvalid⟩ := hreads integral_lastDocument
  exact ⟨request, payload, hbody, hpayload, hvalid.2 (hobject.2 ⟨_, rfl⟩)⟩

end Groundwork.ResetRequest
