import TidePool.Schemes.Durable
import TidePool.Store.Lifecycle

/-! What a node's replies say about the map it stands for, and about what a crash would leave of it.

    `MapReply M F` are the answers of an open node that stands for `M`; the statuses in `F` are failures that
    say nothing about `M`. `Terms.Replies` follows whether the node is open:

        closed   every data call is turned away, `kUnavailable`
        open     reads answer for `M`; a `Put` fails only as the terms allow, and not if it must be taken

    `recordDurable` moves the abstract store: a `Put` that went past DRAM straight to disk is forced, any
    other is in memory until it is demoted, which no reply tells. -/

namespace TidePool.Store
open Schemes

/-- A reply of a node that stands for `M`, or one of the failures `F`. -/
def MapReply (M : BlockKey → Option Block) (F : Set Status) : NodeCall → NodeReply → Prop
  | .get k dst out, .view r out' =>
    (M k = none ∧ Result.code r = .notFound ∧ out' = clearView out) ∨
    (∃ b, M k = some b ∧ (Result.code r, out') = getContract (some b) dst out) ∨
    ∃ s ∈ F, r = .error s ∧ out' = clearView out
  | .probe k, .info r =>
    (M k = none ∧ Result.code r = .notFound) ∨
    (∃ b h, M k = some b ∧ r = .ok ⟨b.metadata, b.sizeBytes, h⟩) ∨ ∃ s ∈ F, r = .error s
  | .contains k, .present r => r = .ok (M k).isSome ∨ ∃ s ∈ F, r = .error s
  | .put _ _, .status _ | .openNode _, .status _ | .closeNode, .status _ => True
  | _, _ => False

/-- The store after a call: `through` tells the blocks that are written to disk at once. -/
def recordDurable (through : Block → Bool) (a : Durable BlockKey Block) :
    NodeCall → NodeReply → Durable BlockKey Block
  | .put k b, .status (.ok ()) => if through b then a.force k b else a.write k b
  | _, _ => a

/-- Blocks that do not fit DRAM at all, `PutOversizedLocked`. -/
def tooLarge (capacity : UInt64) (b : Block) : Bool := capacity != 0 && capacity.toNat < b.sizeBytes

/-- The failures of a read on an open node. -/
def readFaults {σ : Type} [ColdView σ] (s : σ) : Set Status :=
  { st | st ∈ ColdView.faults s ∧ ¬ ColdView.Exact s }

theorem readFaults_subset {σ : Type} [ColdView σ] {s s' : σ} (h : ColdPromises s s') :
    readFaults s' ⊆ readFaults s := fun _ hst => ⟨h.faults hst.1, fun he => hst.2 (h.exact he)⟩

/-- The codes of a failing `Open` or `Close` over this cold tier. -/
def openCodes {σ : Type} [ColdView σ] (s : σ) : Set StatusCode :=
  { code | code = .outOfCapacity ∨ ∃ st ∈ ColdView.openFaults s, code = st.code }

theorem openCodes_subset {σ : Type} [ColdView σ] {s s' : σ} (h : ColdPromises s s') :
    openCodes s' ⊆ openCodes s :=
  fun _ => Or.imp_right fun ⟨st, hst, hcode⟩ => ⟨st, h.openFaults hst, hcode⟩

/-! ### Open or closed -/

/-- What may come between a node and the map it stands for. -/
structure Terms where
  /-- What a failing read may report. -/
  reads : Set Status
  /-- What a failing `Put` may report. -/
  puts : Set Status
  /-- The `Put`s that must be taken by a node that holds these blocks. -/
  takes : (BlockKey → Option Block) → BlockKey → Block → Prop
  /-- The codes a failing `Open` or `Close` may report. -/
  opens : Set StatusCode
  /-- Given memory, `Open` fails over the records only, and `Close` not at all. -/
  sound : Prop

/-- A call turned away. -/
def NodeCall.refused : NodeCall → Status → NodeReply
  | .get _ _ out, s => .view (.error s) (clearView out)
  | .probe _, s => .info (.error s)
  | .contains _, s => .present (.error s)
  | .put _ _, s | .openNode _, s | .closeNode, s => .status (.error s)

/-- The key a data call is about. -/
def NodeCall.key? : NodeCall → Option BlockKey
  | .get k _ _ | .probe k | .contains k | .put k _ => some k
  | .openNode _ | .closeNode => none

/-- Whether the node is open after a call. -/
def recordOpen (opened : Bool) : NodeCall → NodeReply → Bool
  | .openNode _, .status (.ok ()) => true
  | .closeNode, .status _ => false
  | _, _ => opened

/-- Open or not, and what the node stands for. -/
structure Session (α : Type) where
  opened : Bool := false
  store : α

def Session.record {α : Type} (f : α → NodeCall → NodeReply → α) (s : Session α) (c : NodeCall)
    (o : NodeReply) : Session α :=
  ⟨recordOpen s.opened c o, f s.store c o⟩

/-- What is stored moves on its own. -/
theorem Session.follow_store {α : Type} (f : α → NodeCall → NodeReply → α) (cs : List NodeCall)
    (os : List NodeReply) (s : Session α) :
    (follow (Session.record f) s cs os).store = follow f s.store cs os :=
  have himage : ∀ t c o, f (Session.store t) c o = Session.store (Session.record f t c o) :=
    fun _ _ _ => rfl
  (follow_image himage cs os s).symm

namespace Terms

/-- The terms allow this failure of a `Put`, `Open` or `Close`. -/
def Excuses (t : Terms) (opened : Bool) (M : BlockKey → Option Block) : NodeCall → Status → Prop
  | .put k b, s => s ∈ t.puts ∧ ¬ t.takes M k b
  | .openNode env, s => opened = false ∧ s.code ∈ t.opens ∧ (t.sound → env.Ample → s.code = .corruption)
  | .closeNode, s => s.code ∈ t.opens ∧ ¬ t.sound
  | _, _ => True

/-- The replies of a node that stands for `M`. -/
def Replies (t : Terms) (opened : Bool) (M : BlockKey → Option Block) (c : NodeCall) (o : NodeReply) : Prop :=
  if opened = false ∧ c.isData = true then ∃ s, s.code = .unavailable ∧ o = c.refused s
  else MapReply M t.reads c o ∧ ∀ s, o = .status (.error s) → t.Excuses opened M c s

/-- Nothing is allowed by `t` that is not allowed by `t'`. -/
structure Within (t t' : Terms) : Prop where
  reads : t.reads ⊆ t'.reads
  puts : t.puts ⊆ t'.puts
  takes : ∀ M k b, t'.takes M k b → t.takes M k b
  opens : t.opens ⊆ t'.opens
  sound : t'.sound → t.sound

variable {t t' t'' : Terms} {opened : Bool} {M : BlockKey → Option Block} {c : NodeCall} {o : NodeReply}

theorem Within.trans (h : t.Within t') (h' : t'.Within t'') : t.Within t'' :=
  ⟨h.reads.trans h'.reads, h.puts.trans h'.puts, fun M k b hb => h.takes M k b (h'.takes M k b hb),
    h.opens.trans h'.opens, h.sound ∘ h'.sound⟩

theorem Excuses.mono {s : Status} (h : t.Excuses opened M c s) (hw : t.Within t') :
    t'.Excuses opened M c s := by
  cases c with
  | put k b => exact ⟨hw.puts h.1, fun hb => h.2 (hw.takes M k b hb)⟩
  | openNode env => exact ⟨h.1, hw.opens h.2.1, fun hs => h.2.2 (hw.sound hs)⟩
  | closeNode => exact ⟨hw.opens h.1, fun hs => h.2 (hw.sound hs)⟩
  | _ => trivial

end Terms

section MapReply

variable {M : BlockKey → Option Block} {F G : Set Status} {c : NodeCall} {o : NodeReply}

theorem MapReply.mono (h : MapReply M F c o) (hFG : F ⊆ G) : MapReply M G c o := by
  cases c <;> cases o <;> try exact h
  case get.view k dst out r out' =>
    rcases h with h | h | ⟨s, hs, h⟩
    · exact .inl h
    · exact .inr (.inl h)
    · exact .inr (.inr ⟨s, hFG hs, h⟩)
  case probe.info k r =>
    rcases h with h | h | ⟨s, hs, h⟩
    · exact .inl h
    · exact .inr (.inl h)
    · exact .inr (.inr ⟨s, hFG hs, h⟩)
  case contains.present k r => exact h.imp_right fun ⟨s, hs, h⟩ => ⟨s, hFG hs, h⟩

/-- A reply looks at the block of its key only. -/
theorem MapReply.congr {M' : BlockKey → Option Block} (h : MapReply M F c o)
    (hkey : ∀ k, c.key? = some k → M k = M' k) : MapReply M' F c o := by
  cases c <;> cases o <;> try exact h
  case get.view k dst out r out' => simpa only [MapReply, hkey k rfl] using h
  case probe.info k r => simpa only [MapReply, hkey k rfl] using h
  case contains.present k r => simpa only [MapReply, hkey k rfl] using h

/-- An open node's read fails as the map says, or over one of the failures. -/
theorem MapReply.error_code (h : MapReply M F c o) (hread : ∀ k b, c ≠ .put k b) (hc : c.isData = true)
    {st : Status} (ho : o.error? = some st) :
    st ∈ F ∨ st.code ∈ [StatusCode.ok, .invalidArgument, .notFound, .outOfCapacity] := by
  cases c with
  | openNode env => cases hc
  | closeNode => cases hc
  | put k b => exact absurd rfl (hread k b)
  | get k dst out =>
    cases o with
    | view r out' =>
      cases r with
      | ok _ => cases ho
      | error s =>
        obtain rfl := Option.some.inj ho
        rcases h with ⟨-, hcode, -⟩ | ⟨b, -, hcontract⟩ | ⟨s', hs', hr, -⟩
        · exact .inr (by simp [show s.code = _ from hcode])
        · have hmem := getContract_code (some b) dst out
          rw [← hcontract] at hmem
          exact .inr hmem
        · cases hr; exact .inl hs'
    | _ => exact h.elim
  | probe k =>
    cases o with
    | info r =>
      cases r with
      | ok _ => cases ho
      | error s =>
        obtain rfl := Option.some.inj ho
        rcases h with ⟨-, hcode⟩ | ⟨b, handle, -, hr⟩ | ⟨s', hs', hr⟩
        · exact .inr (by simp [show s.code = _ from hcode])
        · cases hr
        · cases hr; exact .inl hs'
    | _ => exact h.elim
  | contains k =>
    cases o with
    | present r =>
      rcases h with rfl | ⟨s', hs', rfl⟩
      · cases ho
      · obtain rfl := Option.some.inj ho
        exact .inl hs'
    | _ => exact h.elim

theorem Terms.Replies.mono {t t' : Terms} {opened : Bool} (h : t.Replies opened M c o) (hw : t.Within t') :
    t'.Replies opened M c o := by
  rw [Terms.Replies] at h ⊢
  split at h
  · rwa [if_pos ‹_›]
  · rw [if_neg ‹_›]
    exact ⟨h.1.mono hw.reads, fun s hs => (h.2 s hs).mono hw⟩

/-- At the other blocks it looks only to tell which `Put` must be taken. -/
theorem Terms.Replies.congr {t : Terms} {opened : Bool} {M' : BlockKey → Option Block}
    (h : t.Replies opened M c o) (hkey : ∀ k, c.key? = some k → M k = M' k)
    (htakes : ∀ k b, c = .put k b → t.takes M' k b → t.takes M k b) : t.Replies opened M' c o := by
  rw [Terms.Replies] at h ⊢
  split at h
  · rwa [if_pos ‹_›]
  · rw [if_neg ‹_›]
    refine ⟨h.1.congr hkey, fun s hs => ?_⟩
    have hexcuse := h.2 s hs
    cases c with
    | put k b => exact ⟨hexcuse.1, fun ht => hexcuse.2 (htakes k b rfl ht)⟩
    | _ => exact hexcuse

theorem Terms.Replies.of_open {t : Terms} {opened : Bool} (hopen : opened = true ∨ c.isData = false)
    (hreply : MapReply M t.reads c o) (hexcuse : ∀ s, o = .status (.error s) → t.Excuses opened M c s) :
    t.Replies opened M c o := by
  rw [Terms.Replies, if_neg]
  · exact ⟨hreply, hexcuse⟩
  · rcases hopen with h | h <;> simp [h]

theorem Terms.Replies.of_closed {t : Terms} {opened : Bool} (hclosed : opened = false) (hc : c.isData = true)
    {s : Status} (hs : s.code = .unavailable) : t.Replies opened M c (c.refused s) := by
  rw [Terms.Replies, if_pos ⟨hclosed, hc⟩]
  exact ⟨s, hs, rfl⟩

/-- A closed node turns every data call away and stays as it is. -/
theorem step_turned_away {τ π : Type} [Tier τ] [EvictionPolicy π] {n : StorageNode τ π}
    (hready : n.ready = false) (hc : c.isData = true) :
    ∃ s, n.step c = .ok (c.refused s, n) ∧ s.code = .unavailable := by
  cases c with
  | openNode env => cases hc
  | closeNode => cases hc
  | put k b =>
    refine ⟨.unavailable "StorageNode::Put: node is not open", ?_, rfl⟩
    simp only [StorageNode.step, StorageNode.put, hready, Bool.not_false, if_true]
    rfl
  | get k dst out =>
    refine ⟨.unavailable "StorageNode::Get: node is not open", ?_, rfl⟩
    simp only [StorageNode.step, StorageNode.get, hready, Bool.not_false, if_true]
    rfl
  | probe k =>
    refine ⟨.unavailable "StorageNode::Probe: node is not open", ?_, rfl⟩
    simp only [StorageNode.step, StorageNode.probe, hready, Bool.not_false, if_true]
    rfl
  | contains k =>
    refine ⟨.unavailable "StorageNode::Contains: node is not open", ?_, rfl⟩
    simp only [StorageNode.step, StorageNode.contains, hready, Bool.not_false, if_true]
    rfl

theorem NodeCall.refused_error (c : NodeCall) (s : Status) : (c.refused s).error? = some s := by
  cases c <;> rfl

theorem recordOpen_data {opened : Bool} (hc : c.isData = true) : recordOpen opened c o = opened := by
  cases c with
  | openNode env => cases hc
  | closeNode => cases hc
  | _ => rfl

/-- A reply that is an error changes nothing. -/
theorem recordDurable_error {through : Block → Bool} {a : Durable BlockKey Block} {s : Status}
    (h : o.error? = some s) : recordDurable through a c o = a := by
  cases c <;> cases o <;> try rfl
  case put.status k b r =>
    cases r with
    | ok _ => cases h
    | error s' => rfl

theorem recordDurable_now (through : Block → Bool) (a : Durable BlockKey Block) (c : NodeCall)
    (o : NodeReply) : (recordDurable through a c o).now = TwoTier.recordPut a.now c o := by
  cases c <;> cases o <;> try rfl
  case put.status k b r =>
    cases r with
    | error s => rfl
    | ok _ =>
      simp only [recordDurable]
      split <;> rfl

end MapReply

/-! ### DRAM in front of a cold tier -/

namespace TwoTier

variable {σ π : Type} [ColdTier σ] [LawfulPolicy π] {x y : TwoTier σ π} {a : Durable BlockKey Block}
  {c : NodeCall} {o : NodeReply} {k : BlockKey} {b : Block}

theorem Served.mapReply (h : Served x y c o) : MapReply x.levels.view (readFaults x.ssd) c o := by
  cases c <;> cases o <;> try exact h.elim
  case put.status k b r => trivial
  case get.view k dst out r out' =>
    rcases h.2 with hnone | hsome | ⟨s, hs, hr, hout, hnot⟩
    · exact .inl hnone
    · exact .inr (.inl hsome)
    · exact .inr (.inr ⟨s, ⟨hs, hnot⟩, hr, hout⟩)
  case probe.info k r =>
    rcases h.2 with hnone | hsome | ⟨s, hs, hr, hnot⟩
    · exact .inl hnone
    · exact .inr (.inl hsome)
    · exact .inr (.inr ⟨s, ⟨hs, hnot⟩, hr⟩)
  case contains.present k r => exact .inl h.2

omit [ColdTier σ] [LawfulPolicy π] in
theorem tooLarge_iff {b : Block} : tooLarge x.dram.stats.capacityBytes b = true ↔ x.Oversized b := by
  simp [tooLarge, Oversized]

theorem Served.holds (h : Served x y c o) (ha : x.levels.Holds a) :
    y.levels.Holds (recordDurable (tooLarge x.dram.stats.capacityBytes) a c o) := by
  cases c <;> cases o <;> try exact h.elim
  case put.status k b r =>
    cases r with
    | error s => exact ha.sinks h.1
    | ok _ =>
      simp only [recordDurable]
      rcases h with ⟨hbig, hlevels⟩ | ⟨hfits, z, hz, -, hlevels⟩
      · rw [if_pos (tooLarge_iff.mpr hbig), hlevels]
        exact ha.writeCold k b
      · rw [if_neg (tooLarge_iff.not.mpr hfits), hlevels]
        exact (ha.sinks hz).writeHot k b
  case get.view k dst out r out' =>
    obtain ⟨⟨z, hz, hlevels | ⟨hnew, hlevels⟩⟩, -⟩ := h
    · rw [hlevels]; exact ha.sinks hz
    · rw [hlevels]; exact (ha.sinks hz).promote hnew
  case probe.info k r => rw [h.1]; exact ha
  case contains.present k r => rw [h.1]; exact ha

omit [LawfulPolicy π] in
/-- Opening and closing move no block. -/
theorem levels_rested {ssd : σ} {index : LocalIndex} {ready : Bool} (h : ColdRested x.ssd ssd) :
    ({ x with ssd, index, ready } : TwoTier σ π).levels = x.levels :=
  levels_same (.refl _) h.contents

/-- The `Put`s that must be taken, as far as the blocks that are there tell: the rest is the node's
    surroundings and its capacity, less than half of what 64 bits count. -/
def Takes (x : TwoTier σ π) (M : BlockKey → Option Block) (k : BlockKey) (b : Block) : Prop :=
  (x.Oversized b ∧ (∀ i, x.allocs.get i = true) ∧ ColdView.Accepts x.ssd k b) ∨
    ¬ x.Oversized b ∧ x.Calm ∧ 2 * x.dram.stats.capacityBytes.toNat < UInt64.size ∧
      ∀ j b', M j = some b' → ColdView.Accepts x.ssd j b'

theorem Takes.mustTake (h : x.Takes x.levels.view k b) (hx : x.Sound) : x.MustTake k b := by
  rcases h with h | ⟨hfits, hcalm, hsmall, haccepts⟩
  · exact .inl h
  · refine .inr ⟨hfits, hcalm, fun j b' hb' => haccepts j b' (TwoLevel.view_of_hot hb'), fun hcap => ?_⟩
    have hheld := hx.bounded hcap
    have hsize : b.sizeBytes ≤ x.dram.stats.capacityBytes.toNat := Nat.not_lt.mp fun hlt => hfits ⟨hcap, hlt⟩
    omega

/-- What may come between the node and its map. -/
def terms (x : TwoTier σ π) : Terms where
  reads := readFaults x.ssd
  puts := x.putFaults
  takes := x.Takes
  opens := openCodes x.ssd
  sound := ColdView.Opens x.ssd

theorem Evolves.takes (h : x.Evolves y) (ht : x.Tracked) {M : BlockKey → Option Block} (hk : x.Takes M k b) :
    y.Takes M k b := by
  have hover : y.Oversized b ↔ x.Oversized b := by rw [Oversized, Oversized, h.capacity]
  rcases hk with ⟨hbig, hallocs, hacc⟩ | ⟨hfits, hcalm, hsmall, haccepts⟩
  · exact .inl ⟨hover.mpr hbig, h.allocs hallocs, h.cold.accepts k b hacc⟩
  · exact .inr ⟨hover.not.mpr hfits, h.calm ht hcalm, by rw [h.capacity]; exact hsmall,
      fun j b' hb' => h.cold.accepts j b' (haccepts j b' hb')⟩

theorem Evolves.terms (h : x.Evolves y) (ht : x.Tracked) : y.terms.Within x.terms where
  reads := readFaults_subset h.cold
  puts := putFaults_subset (h.faults ht)
  takes _ _ _ hk := h.takes ht hk
  opens := openCodes_subset h.cold
  sound := h.cold.opens

/-- A refused `Put` is one that need not be taken. -/
theorem Served.excused (h : Served x y c o) (hx : x.Sound) (ht : x.Tracked) (s : Status)
    (ho : o = .status (.error s)) : x.terms.Excuses x.ready x.levels.view c s := by
  subst ho
  cases c with
  | put k b => exact ⟨(h.2 ht).1, fun hk => (h.2 ht).2 (hk.mustTake hx)⟩
  | openNode env => exact h.elim
  | closeNode => exact h.elim
  | _ => trivial

/-- What a call comes to: the reply is within the terms, and says whether the node is open and what it
    holds. -/
structure Handled (x : TwoTier σ π) (a : Durable BlockKey Block) (c : NodeCall) (o : NodeReply)
    (y : TwoTier σ π) : Prop where
  evolves : x.Evolves y
  ready : y.ready = recordOpen x.ready c o
  replies : x.terms.Replies x.ready a.now c o
  holds : y.levels.Holds (recordDurable (tooLarge x.dram.stats.capacityBytes) a c o)

/-- STEP: every public call, open or closed, replies for the map and keeps what would survive. -/
theorem step_handled (hx : x.Alive) (ht : x.Tracked) (ha : x.levels.Holds a) (c : NodeCall) :
    ∃ o y, x.node.step c = .ok (o, node y) ∧ Handled x a c o y := by
  by_cases hc : c.isData = true
  · cases hready : x.ready with
    | true =>
      obtain ⟨⟨o, n⟩, heq, y, rfl, hfollow, hserved⟩ := (serve_spec (hx.coherent hready) hready hc).answer ht
      refine ⟨o, y, heq, hfollow.evolves, ?_, ?_, hserved.holds ha⟩
      · rw [recordOpen_data hc, hfollow.ready]
      · rw [← ha.view]
        exact .of_open (.inl hready) hserved.mapReply (hserved.excused hx.sound ht)
    | false =>
      obtain ⟨s, heq, hcode⟩ := step_turned_away (n := x.node) hready hc
      refine ⟨_, x, heq, .refl hx, (recordOpen_data hc).symm, .of_closed hready hc hcode, ?_⟩
      rw [recordDurable_error (c.refused_error s)]
      exact ha
  · cases c with
    | openNode env =>
      cases hready : x.ready with
      | true =>
        refine ⟨.status (.ok ()), x, ?_, .refl hx, hready, .of_open (.inl hready) trivial (by simp), ha⟩
        simp only [StorageNode.step, StorageNode.openNode, node_ready, hready, if_true]
      | false =>
        obtain ⟨r, ssd, index, ready, heq, hrested, hrest⟩ := openNode_spec x hready hx.intact env
        refine ⟨.status r, { x with ssd, index, ready }, by simp only [StorageNode.step, heq],
          evolves_rested hx.sound hrested index ready fun hopen => ?_, ?_, .of_open (.inr rfl) trivial ?_, ?_⟩
        · cases r with
          | ok _ => exact ⟨⟨hx.sound.accounted, hx.sound.bounded⟩, hrest.2.1, hrest.2.2.2⟩
          | error s => rw [hrest.1] at hopen; cases hopen
        · cases r with
          | ok _ => exact hrest.1
          | error s => exact hrest.1.trans hready.symm
        · rintro s ⟨⟩
          exact ⟨hready, hrest.2.2.1, hrest.2.2.2⟩
        · rw [levels_rested hrested]; exact ha
    | closeNode =>
      obtain ⟨r, ssd, -, hrested, heq, hwhy⟩ := closeNode_spec x hx.intact
      refine ⟨.status x.node.closeNode.1, { x with ssd, ready := false },
        by simp only [StorageNode.step, heq],
        evolves_rested hx.sound hrested x.index false (by simp), rfl, .of_open (.inr rfl) trivial ?_, ?_⟩
      · rintro s hs
        obtain ⟨hcode, hnot⟩ := hwhy s (NodeReply.status.inj hs)
        exact ⟨.inr hcode, hnot⟩
      · rw [levels_rested hrested]; exact ha
    | _ => exact absurd rfl hc

/-- The same without a view to crashes. -/
theorem step_view (hx : x.Alive) (ht : x.Tracked) (c : NodeCall) :
    ∃ o y, x.node.step c = .ok (o, node y) ∧ x.Evolves y ∧ y.ready = recordOpen x.ready c o ∧
      x.terms.Replies x.ready x.levels.view c o ∧ y.levels.view = recordPut x.levels.view c o := by
  let a : Durable BlockKey Block := ⟨x.levels.view, fun _ => Set.univ, fun _ => trivial⟩
  have ha : x.levels.Holds a := ⟨rfl, fun _ => trivial⟩
  obtain ⟨o, y, heq, h⟩ := step_handled hx ht ha c
  exact ⟨o, y, heq, h.evolves, h.ready, h.replies, h.holds.view.trans (recordDurable_now _ _ _ _)⟩

end TwoTier

end TidePool.Store
