import CodeAudit.Proofs.Engine.History

/-!
# When a cache can be seen through

A cache is transparent for a request if no history of other requests can be noticed in its answer:
whatever engines have put in and taken out, the answer is that of any engine with an empty cache
(`Serves`).  Two answers agree if they are equal; where the clock runs out of range one of them may
be cut short, and then the other says what it would have said.

`cache_transparent_iff`: **a cache is transparent for a request exactly if no request of the history
crosses it** (`QualityRequest.Crosses`), provided that the digest tells their keys apart.  Requests
that cross are the only ones to be taken for each other, and they always differ in their answers: a
tree has at least one node, and plain text has none.
-/

namespace CodeAudit.Engine

/-! ## 1. Transparency -/

/-- Two answers are equal, unless one is cut short by the clock. -/
def Agree (a b : Except Fault QualityReport) : Prop :=
  a = b ∨ a = .error .clockOverflow ∨ b = .error .clockOverflow

/-- A cache serves a request as an empty one does: every answer agrees with that of any engine at any
time that begins with an empty cache, and is cut short only where the same engine's would be. -/
def Serves (parse : Parser) (cache : ResultCache) (r : QualityRequest) : Prop :=
  ∀ (e : Engine) (now : Instant) (settings : CacheSettings) (start : Instant),
    (∀ (e' : Engine) (now' : Instant),
      Agree (e.analyze parse r now cache).1 (e'.analyze parse r now' (.new settings start)).1) ∧
    ((e.analyze parse r now cache).1 = .error .clockOverflow →
      (e.analyze parse r now (.new settings start)).1 = .error .clockOverflow)

namespace QualityRequest

/-- Two requests whose tasks cross, one way or the other. -/
def Crosses (q r : QualityRequest) : Prop :=
  ∃ a b, q.task = .ok a ∧ r.task = .ok b ∧ (a.Crosses b ∨ b.Crosses a)

/-- The digest does not collide on the keys of two requests. -/
def Separated (q r : QualityRequest) : Prop :=
  ∀ a b, q.task = .ok a → r.task = .ok b → a.key = b.key → a.keyBytes = b.keyBytes

end QualityRequest

/-! ## 2. Results -/

variable {parse : Parser} {a b : QualityTask}

/-- Plain text has no nodes and no findings. -/
theorem result_of_plainText (h : a.support = .plainText) : a.result parse = ⟨[], 0⟩ := by
  unfold QualityTask.result QualityTask.run
  rw [h]
  have hnone : Battery.quality .plainText a.selectors = fun _ => [] := by
    funext s
    have hchecks : ∀ checks : List QualityCheck, checks.flatMap (QualityCheck.run .plainText s) = [] :=
      fun checks => List.flatMap_eq_nil_iff.mpr fun _ _ => rfl
    unfold Battery.quality
    rw [hchecks, Finding.sort, List.mergeSort_nil]
  rw [hnone]
  rfl

/-- A tree has a node. -/
theorem nodes_pos_of_grammar {l : Language} (h : a.support = .grammar l) :
    0 < (a.result parse).nodes := by
  unfold QualityTask.result QualityTask.run
  rw [h]
  exact Tree.size_pos _

/-- **Tasks that cross never have the same result.** -/
theorem nodes_ne_of_crosses (h : a.Crosses b) : (a.result parse).nodes ≠ (b.result parse).nodes := by
  obtain ⟨l, -, hgrammar, hplain, -⟩ := h
  have hpos : 0 < (a.result parse).nodes := nodes_pos_of_grammar hgrammar
  rw [result_of_plainText hplain]
  exact Nat.ne_of_gt hpos

/-- **Tasks with one key that do not cross have one result.** -/
theorem result_eq_of_keyBytes_eq (ha : a.Understood) (hb : b.Understood) (hkey : a.keyBytes = b.keyBytes)
    (hcross : ¬ a.Crosses b) (hcross' : ¬ b.Crosses a) : a.result parse = b.result parse := by
  rcases QualityTask.keyBytes_eq_cases ha hb hkey with rfl | ⟨hap, hbp⟩ | h | h
  · rfl
  · rw [result_of_plainText hap, result_of_plainText hbp]
  · exact absurd h hcross
  · exact absurd h hcross'

/-! ## 3. No request that crosses: the cache is transparent -/

variable {requests : List QualityRequest} {r : QualityRequest} {cache : ResultCache}

/-- The result of the task, or an answer cut short by the clock. -/
theorem analyze_eq_of_stored (hcache : cache.Holds (Stored parse requests)) (htask : r.task = .ok b)
    (hdigest : ∀ q ∈ requests, q.Separated r) (hcross : ∀ q ∈ requests, ¬ q.Crosses r) (e : Engine)
    (now : Instant) :
    (e.analyze parse r now cache).1 = .ok (reportOfResult (b.result parse)) ∨
      Instant.after? now e.settings.cache.ttlSecs = none ∧
        (e.analyze parse r now cache).1 = .error .clockOverflow := by
  rcases answer_cases hcache htask with ⟨result, hstored, hanswer⟩ | hanswer | hanswer
  · obtain ⟨q, hq, a, hqtask, hkey, rfl⟩ := hstored
    have hbytes : a.keyBytes = b.keyBytes := hdigest q hq a b hqtask htask hkey.symm
    have hnot : ¬ (a.Crosses b ∨ b.Crosses a) := fun h => hcross q hq ⟨a, b, hqtask, htask, h⟩
    have hsame : a.result parse = b.result parse :=
      result_eq_of_keyBytes_eq (QualityTask.understood_of_task hqtask)
        (QualityTask.understood_of_task htask) hbytes (fun h => hnot (.inl h)) fun h => hnot (.inr h)
    rw [hsame] at hanswer
    exact .inl hanswer
  · exact .inl hanswer
  · exact .inr hanswer

theorem serves_of_not_crosses (hcache : cache.Holds (Stored parse requests))
    (hdigest : ∀ q ∈ requests, q.Separated r) (hcross : ∀ q ∈ requests, ¬ q.Crosses r) :
    Serves parse cache r := by
  intro e now settings start
  cases htask : r.task with
  | error cause =>
    rw [analyze_of_refused htask]
    refine ⟨fun e' now' => .inl ?_, by simp⟩
    rw [analyze_of_refused htask]
  | ok b =>
    have hanswer := analyze_eq_of_stored hcache htask hdigest hcross e now
    refine ⟨fun e' now' => ?_, ?_⟩
    · rw [analyze_new htask]
      rcases hanswer with hanswer | ⟨-, hanswer⟩ <;> rw [hanswer]
      · cases (Instant.after? now' e'.settings.cache.ttlSecs).isSome with
        | true => exact .inl rfl
        | false => exact .inr (.inr rfl)
      · exact .inr (.inl rfl)
    · intro hshort
      rw [analyze_new htask]
      rcases hanswer with hanswer | ⟨hexpiry, -⟩
      · rw [hanswer] at hshort
        cases hshort
      · rw [hexpiry]
        rfl

/-! ## 4. A request that crosses: the cache gives it away -/

/-- **After one request, one that it crosses is answered with the wrong result.** -/
theorem not_serves_of_crosses {q : QualityRequest} (h : q.Crosses r) :
    ¬ Serves parse (after parse [⟨.new {}, q, 0, none⟩] (.new {} 0)) r := by
  obtain ⟨a, b, hqtask, htask, hcross⟩ := h
  intro hserves
  have httl : (Engine.new {}).settings.cache.ttlSecs = 300 := rfl
  have hexpiry : Instant.after? 0 (.ofSeconds 300) = some 300000000000 := by decide
  have hbytes : a.keyBytes = b.keyBytes :=
    hcross.elim (fun h => h.keyBytes_eq) fun h => h.keyBytes_eq.symm
  have hkey : a.key = b.key := congrArg Digest.hex hbytes
  -- the first request leaves its own result under the key of the second
  obtain ⟨left, hget⟩ := get_after_request hqtask parse
  rw [hkey] at hget
  have hagree := (hserves (.new {}) 0 {} 0).1 (.new {}) 0
  rw [analyze_of_hit htask hget, analyze_new htask, httl, hexpiry] at hagree
  rcases hagree with hsame | hshort | hshort
  · have hnodes : (a.result parse).nodes = (b.result parse).nodes :=
      congrArg QualityReport.nodes (Except.ok.inj hsame)
    rcases hcross with h | h
    · exact nodes_ne_of_crosses h hnodes
    · exact nodes_ne_of_crosses h hnodes.symm
  · cases hshort
  · cases hshort

/-- **A cache is transparent for a request exactly if no request of the history crosses it**, where
the digest tells keys apart: for every history of analyses, with and without validation, by any
engines at any times, beginning with an empty cache. -/
theorem cache_transparent_iff (parse : Parser) (requests : List QualityRequest) (r : QualityRequest)
    (hdigest : ∀ q ∈ requests, q.Separated r) :
    (∀ settings start calls, (∀ call ∈ calls, call.request ∈ requests) →
      Serves parse (after parse calls (.new settings start)) r) ↔
      ∀ q ∈ requests, ¬ q.Crosses r := by
  constructor
  · intro h q hq hcross
    refine not_serves_of_crosses hcross (h {} 0 [⟨.new {}, q, 0, none⟩] ?_)
    intro call hcall
    obtain rfl := List.mem_singleton.mp hcall
    exact hq
  · intro hcross settings start calls hcalls
    have hempty : (ResultCache.new settings start).Holds (Stored parse requests) :=
      ResultCache.holds_new settings
    exact serves_of_not_crosses (stored_after calls hcalls hempty) hdigest hcross

/-- A tree of two nodes, as a parser makes of a source in which nothing fits. -/
def unreadable : Parser := fun _ source =>
  .node ⟨"module", none, true, false, false, false, true, 0, source.length⟩
    [.node ⟨"ERROR", none, true, false, true, false, true, 0, source.length⟩ []]

/-- The zero that is the source of one request is the zero that begins the language of another. -/
theorem zero_in_language_seen :
    ¬ ∀ settings start calls, (∀ call ∈ calls, call.request ∈ [⟨"", "\x00python", []⟩]) →
      Serves unreadable (after unreadable calls (.new settings start)) ⟨"\x00", "python", []⟩ := by
  have hq : QualityRequest.task ⟨"", "\x00python", []⟩ = .ok ⟨.plainText, "\x00python", ⟨[]⟩, ""⟩ := by rfl
  have hr : QualityRequest.task ⟨"\x00", "python", []⟩ = .ok ⟨.grammar .python, "python", ⟨[]⟩, "\x00"⟩ := by rfl
  have hcross : QualityTask.Crosses ⟨.grammar .python, "python", ⟨[]⟩, "\x00"⟩
      ⟨.plainText, "\x00python", ⟨[]⟩, ""⟩ := ⟨.python, "", rfl, rfl, rfl, rfl, rfl, rfl⟩
  rw [cache_transparent_iff]
  · intro h
    exact h _ List.mem_cons_self ⟨_, _, hq, hr, .inr hcross⟩
  · intro q hmem a b ha hb _
    obtain rfl := List.mem_singleton.mp hmem
    obtain rfl := Except.ok.inj (hq.symm.trans ha)
    obtain rfl := Except.ok.inj (hr.symm.trans hb)
    exact hcross.keyBytes_eq.symm

end CodeAudit.Engine
