import CheetahMedia.Lib.Incremental

namespace CheetahMedia.Lib.Framing
open Incremental

/-- Feed the pieces one by one, as far as the guard lets them in beside what is waiting, and
read after each until the parser waits. -/
def decodeAll (guard : Nat → Nat → Except ε Unit) (parse : Parser ε β α) :
    List β → List (List β) → List α × Option ε
  | _, [] => ([], none)
  | waiting, p :: ps =>
    match guard waiting.length p.length with
    | .error e => ([], some e)
    | .ok () =>
      match run (ofParser parse) () (waiting ++ p) with
      | (outs, .failed e) => (outs, some e)
      | (outs, .waiting _ rest) =>
        let r := decodeAll guard parse rest ps
        (outs ++ r.1, r.2)

/-- How many of the first `seen` belong to a message that is not whole yet. -/
def pending : List (List β) → Nat → Nat
  | [], seen => seen
  | m :: ms, seen => if m.length ≤ seen then pending ms (seen - m.length) else seen

/-- There is room for each piece beside the part of a message that waits for it. -/
def Fits (guard : Nat → Nat → Except ε Unit) (messages : List (List β)) :
    Nat → List (List β) → Prop
  | _, [] => True
  | seen, p :: ps =>
    guard (pending messages seen) p.length = .ok () ∧ Fits guard messages (seen + p.length) ps

/-- The parser reads the message back and stops at its end, whatever follows. -/
def Delimits (parse : Parser ε β α) (bytes : List β) (out : α) : Prop :=
  ∀ more, parse (bytes ++ more) = (.ok (some out), more)

section
variable {guard : Nat → Nat → Except ε Unit} {parse : Parser ε β α}

/-- A run over what was fed, when nothing failed. -/
theorem run_decodeAll (hp : Splits parse) (ps : List (List β))
    (hrun : run (ofParser parse) () before = (outs, .waiting () waiting))
    (hok : (decodeAll guard parse waiting ps).2 = none) :
    ∃ rest, run (ofParser parse) () (before ++ ps.flatten) =
      (outs ++ (decodeAll guard parse waiting ps).1, .waiting () rest) := by
  induction ps generalizing before outs waiting with
  | nil => exact ⟨waiting, by simpa [decodeAll] using hrun⟩
  | cons p ps ih =>
    have hf := ofParser_segmentable hp
    have hfollows := run_follows hf before () () (.of_related hf rfl before)
    rw [hrun] at hfollows
    obtain ⟨-, u, -, hnext⟩ := hfollows.waiting rfl
    have hboth := hnext p
    rw [decodeAll] at hok ⊢
    cases hguard : guard waiting.length p.length with
    | error e => rw [hguard] at hok; cases hok
    | ok =>
      rw [hguard] at hok
      dsimp only at hok ⊢
      rcases hpiece : run (ofParser parse) () (waiting ++ p) with ⟨found, u' | e⟩
      · rename_i left
        rw [hpiece] at hok hboth
        obtain ⟨rest, hrest⟩ := ih hboth hok
        exact ⟨rest, by rw [List.flatten_cons, ← List.append_assoc, hrest, List.append_assoc]⟩
      · rw [hpiece] at hok
        cases hok

theorem Delimits.run (hp : Splits parse) (h : Delimits parse bytes out) (more : List β) :
    run (ofParser parse) () (bytes ++ more) =
      (out :: (run (ofParser parse) () more).1, (run (ofParser parse) () more).2) := by
  obtain ⟨n, -, -, hrest, hdone⟩ := ofParser_done hp (h more)
  rw [run_done (ofParser_segmentable hp) hdone, ← hrest]

/-- A run over the first part of messages that are delimited waits for the rest of one. -/
theorem run_part (hp : Splits parse) {items : List (List β × α)}
    (hitems : ∀ x ∈ items, Delimits parse x.1 x.2) (hnil : parse [] = (.ok none, []))
    (hpart : part ++ more = (items.map (·.1)).flatten) :
    ∃ outs left, run (ofParser parse) () part = (outs, .waiting () left) ∧
      left.length = pending (items.map (·.1)) part.length ∧
      (more = [] → outs = items.map (·.2)) := by
  induction items generalizing part with
  | nil =>
    obtain ⟨rfl, rfl⟩ := List.append_eq_nil_iff.mp hpart
    exact ⟨[], [], run_more (by simp [ofParser, hnil]), rfl, fun _ => rfl⟩
  | cons x items ih =>
    have hx := hitems x List.mem_cons_self
    rw [List.map_cons, List.flatten_cons] at hpart
    by_cases hle : x.1.length ≤ part.length
    · obtain ⟨part', rfl⟩ : x.1 <+: part := by
        have hprefix : x.1 <+: part ++ more := hpart ▸ List.prefix_append _ _
        exact List.prefix_of_prefix_length_le hprefix (List.prefix_append part more) hle
      rw [List.append_assoc, List.append_cancel_left_eq] at hpart
      obtain ⟨outs, left, hrun, hleft, hall⟩ :=
        ih (fun y hy => hitems y (List.mem_cons_of_mem _ hy)) hpart
      refine ⟨x.2 :: outs, left, by rw [hx.run hp, hrun], ?_, fun hmore => ?_⟩
      · rw [List.map_cons, pending, if_pos hle, hleft, List.length_append, Nat.add_sub_cancel_left]
      · rw [List.map_cons, hall hmore]
    · obtain ⟨m, hm⟩ : part <+: x.1 := by
        have hprefix : part <+: x.1 ++ (items.map (·.1)).flatten := hpart ▸ List.prefix_append _ _
        exact List.prefix_of_prefix_length_le hprefix (List.prefix_append _ _) (by omega)
      have hne : m ≠ [] := by
        rintro rfl
        rw [List.append_nil] at hm
        exact hle (Nat.le_of_eq (congrArg List.length hm.symm))
      have hwhole := hx []
      rw [List.append_nil, ← hm] at hwhole
      refine ⟨[], part, run_more (ofParser_part hp hwhole hne), ?_, fun hmore => ?_⟩
      · rw [List.map_cons, pending, if_neg hle]
      · rw [hmore, List.append_nil] at hpart
        exact absurd (congrArg List.length hpart) (by rw [List.length_append]; omega)

/-- Nothing fails while delimited messages are fed in pieces that fit. -/
theorem decodeAll_fits (hp : Splits parse) {items : List (List β × α)}
    (hitems : ∀ x ∈ items, Delimits parse x.1 x.2) (hnil : parse [] = (.ok none, []))
    (hpieces : before ++ ps.flatten = (items.map (·.1)).flatten)
    (hfits : Fits guard (items.map (·.1)) before.length ps)
    (hrun : run (ofParser parse) () before = (outs, .waiting () waiting)) :
    (decodeAll guard parse waiting ps).2 = none := by
  induction ps generalizing before outs waiting with
  | nil => rfl
  | cons p ps ih =>
    rw [List.flatten_cons, ← List.append_assoc] at hpieces
    obtain ⟨_, left, hbefore, hleft, -⟩ :=
      run_part hp hitems hnil (by rw [← List.append_assoc]; exact hpieces)
    obtain ⟨_, left', hboth, -, -⟩ := run_part hp hitems hnil hpieces
    rw [hrun] at hbefore
    cases hbefore
    have hf := ofParser_segmentable hp
    have hfollows := run_follows hf before () () (.of_related hf rfl before)
    rw [hrun] at hfollows
    obtain ⟨-, u, -, hnext⟩ := hfollows.waiting rfl
    have hpiece := hnext p
    rw [hboth] at hpiece
    obtain ⟨hguard, hlater⟩ := hfits
    rw [decodeAll, hleft, hguard]
    dsimp only
    rcases hfound : run (ofParser parse) () (waiting ++ p) with ⟨found, halt⟩
    rw [hfound] at hpiece
    obtain rfl : Halt.waiting () left' = halt := congrArg Prod.snd hpiece
    exact ih hpieces (by rw [List.length_append]; exact hlater) hboth

theorem delimits_of_run (hp : Splits parse) {items : List (List β × α)}
    (hexact : ∀ x ∈ items, ∀ more rest, parse (x.1 ++ more) = (.ok (some x.2), rest) →
      Delimits parse x.1 x.2)
    (hrun : (run (ofParser parse) () (items.map (·.1)).flatten).1 = items.map (·.2)) :
    ∀ x ∈ items, Delimits parse x.1 x.2 := by
  induction items with
  | nil => simp
  | cons x items ih =>
    rw [List.map_cons, List.flatten_cons, List.map_cons] at hrun
    have hx : Delimits parse x.1 x.2 := by
      rcases hparse : parse (x.1 ++ (items.map (·.1)).flatten) with ⟨e | _ | out, rest⟩
      · have hfail : ofParser parse () (x.1 ++ (items.map (·.1)).flatten) = .fail e := by
          simp only [ofParser, hparse]
        rw [run_fail hfail] at hrun
        cases hrun
      · have hmore : ofParser parse () (x.1 ++ (items.map (·.1)).flatten) = .more () := by
          simp only [ofParser, hparse]
        rw [run_more hmore] at hrun
        cases hrun
      · obtain ⟨n, -, -, -, hdone⟩ := ofParser_done hp hparse
        rw [run_done (ofParser_segmentable hp) hdone] at hrun
        obtain rfl := (List.cons.inj hrun).1
        exact hexact x List.mem_cons_self _ rest hparse
    rw [hx.run hp] at hrun
    intro y hy
    rcases List.mem_cons.mp hy with rfl | hy
    · exact hx
    · exact ih (fun z hz => hexact z (List.mem_cons_of_mem _ hz)) (List.cons.inj hrun).2 y hy

/-- Messages that the parser gives back only where it also stops at their ends: a list of
them, however it is cut, is read back if, and only if, all of them are delimited. -/
theorem decodeAll_iff (hp : Splits parse) (hnil : parse [] = (.ok none, []))
    {items : List (List β × α)}
    (hexact : ∀ x ∈ items, ∀ more rest, parse (x.1 ++ more) = (.ok (some x.2), rest) →
      Delimits parse x.1 x.2)
    (hpieces : ps.flatten = (items.map (·.1)).flatten) (hfits : Fits guard (items.map (·.1)) 0 ps) :
    decodeAll guard parse [] ps = (items.map (·.2), none) ↔ ∀ x ∈ items, Delimits parse x.1 x.2 := by
  have hstart : run (ofParser parse) () [] = ([], .waiting () []) :=
    run_more (by simp only [ofParser, hnil])
  constructor
  · intro h
    obtain ⟨rest, hrest⟩ := run_decodeAll hp ps hstart (by rw [h])
    rw [List.nil_append, hpieces, h] at hrest
    exact delimits_of_run hp hexact (by rw [hrest]; rfl)
  · intro hitems
    have hstream : [] ++ ps.flatten = (items.map (·.1)).flatten := hpieces
    have hok := decodeAll_fits hp hitems hnil hstream hfits hstart
    obtain ⟨rest, hrest⟩ := run_decodeAll hp ps hstart hok
    obtain ⟨outs, left, hwhole, -, hall⟩ :=
      run_part hp hitems hnil (List.append_nil (items.map (·.1)).flatten)
    rw [List.nil_append, hpieces, hwhole] at hrest
    refine Prod.ext ?_ hok
    rw [← hall rfl]
    exact (congrArg Prod.fst hrest).symm

/-- The same for messages that are changed on their way out, by a condition on them. -/
theorem decodeAll_written_iff (hp : Splits parse) (hnil : parse [] = (.ok none, []))
    {written : List (List β × μ)} {sent : μ → α} {Good : μ → Prop}
    (hexact : ∀ x ∈ written, ∀ more rest, parse (x.1 ++ more) = (.ok (some (sent x.2)), rest) →
      Good x.2)
    (hgood : ∀ x ∈ written, Good x.2 → Delimits parse x.1 (sent x.2))
    (hpieces : ps.flatten = (written.map (·.1)).flatten)
    (hfits : Fits guard (written.map (·.1)) 0 ps) :
    decodeAll guard parse [] ps = (written.map fun x => sent x.2, none) ↔
      ∀ x ∈ written, Good x.2 := by
  have hbytes : (written.map fun x => (x.1, sent x.2)).map (·.1) = written.map (·.1) := by
    rw [List.map_map]
    rfl
  rw [← hbytes] at hpieces hfits
  have hiff := decodeAll_iff hp hnil (fun y hy more rest hread => by
    obtain ⟨x, hx, rfl⟩ := List.mem_map.mp hy
    exact hgood x hx (hexact x hx more rest hread)) hpieces hfits
  rw [List.map_map] at hiff
  refine hiff.trans ⟨fun h x hx => ?_, fun h y hy => ?_⟩
  · have hx' := h (x.1, sent x.2) (List.mem_map_of_mem hx) []
    exact hexact x hx [] [] hx'
  · obtain ⟨x, hx, rfl⟩ := List.mem_map.mp hy
    exact hgood x hx (h x hx)

end
end CheetahMedia.Lib.Framing
