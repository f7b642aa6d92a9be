import Herald.Proofs.Json.Yields
import Herald.Proofs.RichText.Element
import Herald.RichText.Reading

/-!
# What rich text gives notice of

* `Notice.isOfReading`: an entry is no node, or there is no list of nodes;
* `Notice.isOfRendering`: a node is unknown, an element is too deep or has an unknown tag, or a link
  has no target.

Reading nodes gives only notices of the first kind (`Node.all_nodes`), and rendering them only
notices of the second (`Node.all_renderAll`).
-/

namespace Herald

open Json

/-- Given when nodes are read. -/
def Notice.isOfReading : Notice → Bool
  | .malformedNode | .notANodeList _ => true
  | _ => false

/-- Given when nodes are rendered. -/
def Notice.isOfRendering : Notice → Bool
  | .unknownNode | .nestedTooDeeply .. | .missingTag _ | .linkWithoutTarget => true
  | _ => false

namespace RichText.Node

open Markup

/-! ### Reading -/

theorem all_byKind {P : Notice → Prop} {kind : String} {text other : Option Node}
    {element : Noted (Option Node)} (h : element.All P) :
    (byKind kind text element other).All P := by
  unfold byKind
  split
  · exact Noted.all_pure text
  · split
    · exact h
    · exact Noted.all_pure other

mutual

theorem all_ofValue? : ∀ v : Value, (ofValue? v).All (·.isOfReading)
  | .object ms => by
    rw [ofValue?]
    split
    · exact all_byKind (all_elementOfMembers? .empty ms)
    · exact Noted.all_pure none
  | .array [] => by simp [ofValue?]
  | .array (.string kind :: items) => by
    rw [ofValue?]
    exact all_byKind (all_elementOfItems? items)
  | .array (.null :: _) | .array (.bool _ :: _) | .array (.number _ :: _)
  | .array (.array _ :: _) | .array (.object _ :: _) => by simp [ofValue?]
  | .null | .bool _ | .number _ | .string _ => by simp [ofValue?]

theorem all_elementOfMembers? : ∀ (d : Draft) (ms : List (String × Value)),
    (elementOfMembers? d ms).All (·.isOfReading)
  | d, [] => by simp [elementOfMembers?]
  | d, (k, v) :: ms => by
    unfold elementOfMembers?
    split
    · split
      · exact all_elementOfMembers? _ ms
      · exact Noted.all_pure none
    · split
      · split
        · exact all_elementOfMembers? _ ms
        · exact Noted.all_pure none
      · split
        · split
          · rw [Noted.all_bind]
            exact ⟨all_nodes v, all_elementOfMembers? _ ms⟩
          · exact Noted.all_pure none
        · exact all_elementOfMembers? d ms

theorem all_elementOfItems? : ∀ items : List Value,
    (elementOfItems? items).All (·.isOfReading)
  | [] => by simp [elementOfItems?]
  | [v] => by cases v <;> simp [elementOfItems?]
  | [v, children] => by
    have h := all_nodes children
    cases v <;> simp [elementOfItems?, h]
  | v :: children :: attributes :: rest => by
    have h := all_nodes children
    cases v with
    | string t =>
      rw [elementOfItems?, Noted.all_bind]
      refine ⟨h, ?_⟩
      cases attributes? attributes <;> exact Noted.all_pure _
    | _ => simp [elementOfItems?]

/-- What reading a list of nodes may give notice of. -/
theorem all_nodes : ∀ v : Value, (nodes v).All (·.isOfReading)
  | .array items => by
    rw [nodes]
    exact all_entries items
  | .null => by simp [nodes]
  | .bool _ | .number _ | .string _ | .object _ => by simp [nodes, Notice.isOfReading]

theorem all_entries : ∀ items : List Value, (entries items).All (·.isOfReading)
  | [] => by simp [entries]
  | v :: vs => by
    have hv := all_ofValue? v
    have hvs := all_entries vs
    have hm : Notice.malformedNode.isOfReading := rfl
    rw [entries]
    cases h : (ofValue? v).value <;> simp [h, hv, hvs, hm]

end

theorem all_nodes? (v : Value) : (nodes? v).All (·.isOfReading) := by
  have h := all_nodes v
  cases v <;> simp [nodes?, h]

/-! ### Rendering -/

theorem all_elementNotices (target : Option String) (tag : Tag) :
    ∀ n ∈ elementNotices target tag, n.isOfRendering := by
  cases tag <;> cases target <;> simp [elementNotices, Notice.isOfRendering]

mutual

theorem all_render (d : Dialect) : ∀ (depth : Nat) (c : Context) (n : Node),
    ∀ x ∈ (render d depth c n).notices, x.isOfRendering
  | depth, c, .text data => by simp
  | depth, c, .unknown => by simp [Notice.isOfRendering]
  | depth, c, .element tag attributes children => by
    have ih := all_renderAll d (depth + 1) (c.within tag) children
    rcases Nat.lt_or_ge depth maxDepth with h | h
    · rw [notices_render_element h, List.forall_mem_append]
      refine ⟨?_, all_elementNotices _ tag⟩
      split
      · simp
      · exact ih
    · simp [render_deep h, Notice.isOfRendering]

/-- What rendering nodes may give notice of. -/
theorem all_renderAll (d : Dialect) : ∀ (depth : Nat) (c : Context) (ns : List Node),
    ∀ x ∈ (renderAll d depth c ns).notices, x.isOfRendering
  | depth, c, [] => by simp [renderAll]
  | depth, c, n :: ns => by
    rw [renderAll, List.forall_mem_append]
    exact ⟨all_render d depth c n, all_renderAll d depth _ ns⟩

end

theorem all_toMrkdwn (ns : List Node) : (toMrkdwn ns).All (·.isOfRendering) :=
  all_renderAll mrkdwn 0 .fresh ns

end RichText.Node

end Herald
