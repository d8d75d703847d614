import LogRelay.Pipeline
import LogRelay.Proofs.Transformer.Path
import LogRelay.Proofs.Worker.Path

/-!
What is seen of the parts of a pipeline: of each worker, of the transformer and of the reader of the
sink. The records that arrive on the stream are told apart by the keys of their subscriptions.
-/

namespace LogRelay.Pipeline

namespace Action

/-- The move, if the action is one of that worker. -/
def moveOf? (i : Nat) : Action → Option Worker.Move
  | worker j m => if j = i then some m else none
  | _ => none

end Action

namespace Effect

def ofWorker? (i : Nat) : Effect → Option Worker.Effect
  | worker j e => if j = i then some e else none
  | _ => none

def ofTransformer? : Effect → Option Transformer.Effect
  | transformer e => some e
  | _ => none

def line? : Effect → Option RoutedLine
  | line routed => some routed
  | _ => none

/-- The record that a worker puts on the stream, with the key of its subscription. -/
def arrival? (keys : List String) : Effect → Option (String × Record)
  | worker i (.emit record) => keys[i]?.map (·, record)
  | _ => none

end Effect

/-- The moves of one worker. -/
def movesOf (i : Nat) (actions : List Action) : List Worker.Move :=
  actions.filterMap (Action.moveOf? i)

/-- What is seen of one worker. -/
def ofWorker (i : Nat) (effects : List Effect) : List Worker.Effect :=
  effects.filterMap (Effect.ofWorker? i)

/-- What is seen of the transformer. -/
def ofTransformer (effects : List Effect) : List Transformer.Effect :=
  effects.filterMap Effect.ofTransformer?

/-- The lines put on the sink. -/
def delivered (effects : List Effect) : List RoutedLine :=
  Transformer.emitted (ofTransformer effects)

/-- The lines that the reader of the sink takes. -/
def linesRead (effects : List Effect) : List RoutedLine := effects.filterMap Effect.line?

/-- The records put on the stream, each with the key of its subscription. -/
def arrivals (keys : List String) (effects : List Effect) : List (String × Record) :=
  effects.filterMap (Effect.arrival? keys)

variable {i j : Nat} {key : String} {keys : List String}

theorem ofWorker_append (i : Nat) (xs ys : List Effect) :
    ofWorker i (xs ++ ys) = ofWorker i xs ++ ofWorker i ys :=
  List.filterMap_append

theorem ofTransformer_append (xs ys : List Effect) :
    ofTransformer (xs ++ ys) = ofTransformer xs ++ ofTransformer ys :=
  List.filterMap_append

theorem linesRead_append (xs ys : List Effect) :
    linesRead (xs ++ ys) = linesRead xs ++ linesRead ys :=
  List.filterMap_append

theorem arrivals_append (keys : List String) (xs ys : List Effect) :
    arrivals keys (xs ++ ys) = arrivals keys xs ++ arrivals keys ys :=
  List.filterMap_append

theorem delivered_append (xs ys : List Effect) :
    delivered (xs ++ ys) = delivered xs ++ delivered ys := by
  rw [delivered, ofTransformer_append, Transformer.emitted_append]
  rfl

variable (es : List Worker.Effect) (ts : List Transformer.Effect)

theorem ofWorker_self (i : Nat) : ofWorker i (es.map (.worker i)) = es := by
  simp [ofWorker, Effect.ofWorker?, Function.comp_def, List.filterMap_map]

theorem ofWorker_of_ne (h : j ≠ i) : ofWorker i (es.map (.worker j)) = [] := by
  simp [ofWorker, Effect.ofWorker?, h]

theorem ofWorker_transformer (i : Nat) : ofWorker i (ts.map .transformer) = [] := by
  simp [ofWorker, Effect.ofWorker?]

theorem ofTransformer_worker (i : Nat) : ofTransformer (es.map (.worker i)) = [] := by
  simp [ofTransformer, Effect.ofTransformer?]

theorem ofTransformer_self : ofTransformer (ts.map .transformer) = ts := by
  simp [ofTransformer, Effect.ofTransformer?, Function.comp_def, List.filterMap_map]

theorem linesRead_worker (i : Nat) : linesRead (es.map (.worker i)) = [] := by
  simp [linesRead, Effect.line?]

theorem linesRead_transformer : linesRead (ts.map .transformer) = [] := by
  simp [linesRead, Effect.line?]

theorem arrivals_worker (hk : keys[i]? = some key) :
    arrivals keys (es.map (.worker i)) = (Worker.emitted es).map (key, ·) := by
  simp only [arrivals, Worker.emitted, List.filterMap_map, List.map_filterMap]
  congr 1
  funext e
  cases e <;> simp [Effect.arrival?, Worker.Effect.record?, hk]

theorem arrivals_transformer (keys : List String) : arrivals keys (ts.map .transformer) = [] := by
  simp [arrivals, Effect.arrival?]

/-- The arrivals of one subscription are what its worker puts on the stream. -/
theorem arrivals_of_key (hkeys : keys.Nodup) (hk : keys[i]? = some key) (effects : List Effect) :
    ((arrivals keys effects).filter (·.1 = key)).map (·.2) = Worker.emitted (ofWorker i effects) := by
  have hi : i < keys.length := (List.getElem?_eq_some_iff.1 hk).1
  simp only [arrivals, ofWorker, Worker.emitted, List.filter_filterMap, List.map_filterMap,
    List.filterMap_filterMap]
  congr 1
  funext e
  cases e with
  | worker j e =>
    by_cases hj : j = i
    · subst hj
      cases e <;> simp [Effect.arrival?, Effect.ofWorker?, Worker.Effect.record?, hk]
    · have hother : ∀ k, keys[j]? = some k → k ≠ key := by
        rintro k hk' rfl
        exact hj ((List.getElem?_inj hi hkeys).1 (hk.trans hk'.symm)).symm
      cases e with
      | emit record =>
        cases hk' : keys[j]? with
        | none => simp [Effect.arrival?, Effect.ofWorker?, hj, hk']
        | some k => simp [Effect.arrival?, Effect.ofWorker?, hj, hk', hother k hk']
      | _ => simp [Effect.arrival?, Effect.ofWorker?, hj]
  | transformer e => rfl
  | line line => rfl

end LogRelay.Pipeline
