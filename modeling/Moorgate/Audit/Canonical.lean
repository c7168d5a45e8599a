import Moorgate.Framework.Base.Json
import Moorgate.Framework.Base.Timestamps
import Moorgate.Store.Audit

/-!
# What the MAC input of a row determines: `auditCanonicalHMAC`

The fields are joined by bars and nothing is escaped. The hash, the number, the time and the two
ids have no bar, so they are read off from the left; the detail and the address are read off from
the right. Of the four free fields that are left the input determines only the text they are joined
to (`input_eq_iff`).
-/

namespace Moorgate.Audit

open Framework Models Store

/-- What `host(ip)` prints, or nothing. -/
def IsHostText (s : String) : Prop := ∀ c ∈ s.toList, isHexDigit c ∨ c = '.' ∨ c = ':'

/-- The fields that the MAC of a keyed row is taken over; `createdAt` is in nanoseconds. -/
@[ext]
structure MacRecord where
  prev : String
  seq : Int64
  createdAt : ℤ
  tenantID : UUID
  actorID : Option UUID
  (actorName action targetKind targetID ip detailJSON : String)
  prev_hex : prev = "" ∨ IsHexDigest prev
  ip_host : IsHostText ip
  detail_object : Json.ObjectText detailJSON.toList

/-- `auditCanonicalHMAC` for any `time.Time`. -/
def auditCanonicalNanos (seq : ℤ) (createdAt : ℤ)
    (tenantID actorID actorName action tk tid ip detailJSON : String) : String :=
  String.intercalate "|" [toString seq, formatNanos createdAt, tenantID, actorID, actorName, action,
    tk, tid, ip, detailJSON]

namespace MacRecord

def input (t : MacRecord) : String :=
  auditData t.prev (auditCanonicalNanos t.seq.toInt t.createdAt t.tenantID.string
    (nilUUID t.actorID) t.actorName t.action t.targetKind t.targetID t.ip t.detailJSON)

def freeFields (t : MacRecord) : List (List Char) :=
  [t.actorName.toList, t.action.toList, t.targetKind.toList, t.targetID.toList]

def freeText (t : MacRecord) : List Char := joinWith '|' t.freeFields

variable {s t : MacRecord}

theorem toList_input (t : MacRecord) :
    t.input.toList = t.prev.toList ++ '|' :: ((toString t.seq.toInt).toList ++ '|' ::
      ((formatNanos t.createdAt).toList ++ '|' :: (t.tenantID.string.toList ++ '|' ::
        ((nilUUID t.actorID).toList ++ '|' :: ((t.freeText ++ '|' :: t.ip.toList) ++ '|' ::
          t.detailJSON.toList))))) := by
  have hbar : "|".toList = ['|'] := rfl
  simp [input, auditData, auditCanonicalNanos, hbar, freeText, freeFields, joinWith]

/-! ### No bar -/

theorem bar_notMem_prev (t : MacRecord) : '|' ∉ t.prev.toList := by
  rcases t.prev_hex with hempty | hhex
  · rw [hempty]
    exact List.not_mem_nil
  · exact hhex.no_bar

theorem bar_notMem_seq (n : ℤ) : '|' ∉ (toString n).toList := by
  intro hbar
  rw [toList_toString] at hbar
  rcases mem_signedText hbar with hdigit | hdash
  · exact absurd hdigit (by decide)
  · exact absurd hdash (by decide)

theorem bar_notMem_formatNanos (a : ℤ) : '|' ∉ (formatNanos a).toList := by
  intro hbar
  rcases mem_formatNanos hbar with hdigit | hmark
  · exact absurd hdigit (by decide)
  · exact absurd hmark (by decide)

theorem bar_notMem_uuid (u : UUID) : '|' ∉ u.string.toList := by
  intro hbar
  rcases UUID.mem_string hbar with hdigit | hdash
  · exact absurd hdigit (by decide)
  · exact absurd hdash (by decide)

theorem bar_notMem_nilUUID : ∀ u : Option UUID, '|' ∉ (nilUUID u).toList
  | none => List.not_mem_nil
  | some u => bar_notMem_uuid u

theorem bar_notMem_ip (t : MacRecord) : '|' ∉ t.ip.toList := by
  intro hbar
  rcases t.ip_host _ hbar with hdigit | hdot | hcolon
  · exact absurd hdigit (by decide)
  · exact absurd hdot (by decide)
  · exact absurd hcolon (by decide)

theorem nilUUID_inj {u v : Option UUID} (h : (nilUUID u).toList = (nilUUID v).toList) : u = v := by
  have hnone : (nilUUID none).toList = [] := rfl
  have hsome : ∀ w : UUID, (nilUUID (some w)).toList ≠ [] := by
    simp [nilUUID, UUID.string]
  cases u with
  | none =>
    cases v with
    | none => rfl
    | some v => exact absurd (h.symm.trans hnone) (hsome v)
  | some u =>
    cases v with
    | none => exact absurd (h.trans hnone) (hsome u)
    | some v => exact congrArg some (UUID.string_inj h)

/-! ### The other fields -/

/-- The same but for the four free fields. -/
structure SameRest (s t : MacRecord) : Prop where
  prev : s.prev = t.prev
  seq : s.seq = t.seq
  createdAt : s.createdAt = t.createdAt
  tenantID : s.tenantID = t.tenantID
  actorID : s.actorID = t.actorID
  ip : s.ip = t.ip
  detailJSON : s.detailJSON = t.detailJSON

theorem detail_inj {u v : List Char}
    (h : u ++ '|' :: s.detailJSON.toList = v ++ '|' :: t.detailJSON.toList) :
    u = v ∧ s.detailJSON.toList = t.detailJSON.toList := by
  rcases append_cons_split h with hsame | ⟨w, -, hdetail⟩ | ⟨w, -, hdetail⟩
  · exact hsame
  · exact absurd s.detail_object.scans (Json.not_scans_after_bar (hdetail ▸ t.detail_object.scans))
  · exact absurd t.detail_object.scans (Json.not_scans_after_bar (hdetail ▸ s.detail_object.scans))

/-- **What the input determines**: every field but the free ones, and what these are joined to. -/
theorem input_eq_iff : s.input = t.input ↔ SameRest s t ∧ s.freeText = t.freeText := by
  constructor
  · intro h
    have htext := congrArg String.toList h
    rw [toList_input, toList_input] at htext
    obtain ⟨hprev, htext⟩ := append_cons_inj s.bar_notMem_prev t.bar_notMem_prev htext
    obtain ⟨hseq, htext⟩ := append_cons_inj (bar_notMem_seq _) (bar_notMem_seq _) htext
    obtain ⟨htime, htext⟩ :=
      append_cons_inj (bar_notMem_formatNanos _) (bar_notMem_formatNanos _) htext
    obtain ⟨htenant, htext⟩ := append_cons_inj (bar_notMem_uuid _) (bar_notMem_uuid _) htext
    obtain ⟨hactor, htext⟩ := append_cons_inj (bar_notMem_nilUUID _) (bar_notMem_nilUUID _) htext
    obtain ⟨htext, hdetail⟩ := detail_inj htext
    obtain ⟨hfree, hip⟩ := append_cons_inj_right s.bar_notMem_ip t.bar_notMem_ip htext
    refine ⟨⟨String.toList_inj.mp hprev, ?_, formatNanos_inj (String.toList_inj.mp htime),
      UUID.string_inj htenant, nilUUID_inj hactor, String.toList_inj.mp hip,
      String.toList_inj.mp hdetail⟩, hfree⟩
    rw [toList_toString, toList_toString] at hseq
    exact Int64.toInt_inj.mp (signedText_inj hseq)
  · rintro ⟨hrest, hfree⟩
    apply String.toList_inj.mp
    rw [toList_input, toList_input, hrest.prev, hrest.seq, hrest.createdAt, hrest.tenantID,
      hrest.actorID, hrest.ip, hrest.detailJSON, hfree]

def withFree (t : MacRecord) (name action kind id : List Char) : MacRecord :=
  { t with
    actorName := String.ofList name, action := String.ofList action, targetKind :=
      String.ofList kind
    targetID := String.ofList id }

theorem freeFields_withFree (t : MacRecord) (name action kind id : List Char) :
    (t.withFree name action kind id).freeFields = [name, action, kind, id] := by
  simp only [freeFields, withFree, String.toList_ofList]

/-- Other free fields that are joined to the same text make another record with the same input. -/
theorem not_unique (name action kind id : List Char)
    (hjoin : joinWith '|' [name, action, kind, id] = t.freeText)
    (hother : [name, action, kind, id] ≠ t.freeFields) : ¬ ∀ s, s.input = t.input → s = t := by
  intro hunique
  have hfields := t.freeFields_withFree name action kind id
  have hrest : SameRest (t.withFree name action kind id) t := ⟨rfl, rfl, rfl, rfl, rfl, rfl, rfl⟩
  have hfree : (t.withFree name action kind id).freeText =
      t.freeText := by rw [freeText, hfields, hjoin]
  have hsame := hunique _ (input_eq_iff.mpr ⟨hrest, hfree⟩)
  rw [hsame] at hfields
  exact hother hfields.symm

/-- **The input determines the record** exactly if no free field has a bar. -/
theorem input_determines_iff (t : MacRecord) :
    (∀ s, s.input = t.input → s = t) ↔ ∀ f ∈ t.freeFields, '|' ∉ f := by
  constructor
  · -- a bar in a field can be the one that follows it, or the one before it
    intro hunique f hf hbar
    obtain ⟨a, b, rfl⟩ := List.append_of_mem hbar
    simp only [freeFields, List.mem_cons, List.not_mem_nil, or_false] at hf
    rcases hf with hname | haction | hkind | hid
    · refine not_unique a (b ++ '|' :: t.action.toList) t.targetKind.toList t.targetID.toList ?_
        ?_ hunique
      · simp [freeText, freeFields, joinWith, ← hname]
      · simp [freeFields, ← hname]
    · refine not_unique t.actorName.toList a (b ++ '|' :: t.targetKind.toList) t.targetID.toList ?_
        ?_ hunique
      · simp [freeText, freeFields, joinWith, ← haction]
      · simp [freeFields, ← haction]
    · refine not_unique t.actorName.toList t.action.toList a (b ++ '|' :: t.targetID.toList) ?_
        ?_ hunique
      · simp [freeText, freeFields, joinWith, ← hkind]
      · simp [freeFields, ← hkind]
    · refine not_unique t.actorName.toList t.action.toList (t.targetKind.toList ++ '|' :: a) b ?_
        ?_ hunique
      · simp [freeText, freeFields, joinWith, ← hid]
      · simp [freeFields, ← hid]
  · intro hfree s h
    obtain ⟨hrest, htext⟩ := input_eq_iff.mp h
    have hfields : t.freeFields = s.freeFields := joinWith_inj rfl hfree htext.symm
    simp only [freeFields, List.cons.injEq, and_true, String.toList_inj] at hfields
    obtain ⟨hname, haction, hkind, hid⟩ := hfields
    exact MacRecord.ext hrest.prev hrest.seq hrest.createdAt hrest.tenantID hrest.actorID hname.symm
      haction.symm hkind.symm hid.symm hrest.ip hrest.detailJSON

end MacRecord

theorem object_empty : Json.ObjectText emptyObject.toList :=
  ⟨[], [], [], nofun, nofun, .emptyObject nofun, rfl⟩

/-- The deletion of a user, in the log of 16 August 2026. -/
def deletion (actorName action : String) : MacRecord where
  prev := ""
  seq := 10
  createdAt := 1786881600000000000
  tenantID := .ofNat 1
  actorID := none
  actorName := actorName
  action := action
  targetKind := "user"
  targetID := "u1"
  ip := ""
  detailJSON := emptyObject
  prev_hex := .inl rfl
  ip_host := nofun
  detail_object := object_empty

/-- Another actor and another action, with the same input. -/
theorem input_not_injective :
    (deletion "alice|user.create" "user.delete").input =
      (deletion "alice" "user.create|user.delete").input ∧
      deletion "alice|user.create" "user.delete" ≠ deletion "alice" "user.create|user.delete" := by
  constructor
  · exact MacRecord.input_eq_iff.mpr ⟨⟨rfl, rfl, rfl, rfl, rfl, rfl, rfl⟩, by decide⟩
  · intro h
    exact absurd (congrArg MacRecord.actorName h) (by decide)

end Moorgate.Audit
