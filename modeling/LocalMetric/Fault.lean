import LocalMetric.Quantity
/-!
# Faults

Every way in which an operation refuses its input, as a cause with the values that explain it. The
wording is in one function.
-/
namespace LocalMetric

/-- Why an operation was refused. -/
inductive Fault (α : Type) where
  -- configuration of the local analysis
  | thresholdOutside (got : α)
  | strongWeightNotPositive (got : α)
  | weightsReversed (weak strong : α)
  | unknownCenter (name : String)
  | negativeTolerance (got : α)
  -- the local analysis
  | emptyNeighborhood
  | neighborhoodRank (shape : List Nat)
  | anchorMismatch (anchor neighborhood : Nat)
  | neighborhoodNotFinite
  | noEigenvalues
  | weightMatrixNotSquare (shape : List Nat)
  | weightMatrixAsymmetric
  | weightMatrixIndefinite
  | dimensionOutside (limit : Nat) (got : Int)
  -- points and their associations
  | vectorsRank (shape : List Nat)
  | vectorsEmpty (shape : List Nat)
  | vectorsNotFinite
  | idCount (ids rows : Nat)
  | idsNotUnique
  | unknownPoint (id : Int)
  | missingAssociation (kind : String) (id : Int)
  | noWeightMatrix (id : Int)
  | unknownState (name : String)
  -- neighborhoods and preprocessors
  | neighborCountNotPositive (k : Quantity α)
  | neighborCountNotWhole
  | negativeRadius (radius : α)
  | noWorkers
  | unknownPreprocessor (name : String) (registered : List String)
  | wrongParameters
  | missingFactory (name : String)
  | noNeighborCount
  -- distances and their counters
  | unbound
  | negativeIncrement (n : Int)
  | noSuchObject (handle : Nat)
  -- values and arrays
  | notNumber
  | numberTooLarge
  | unknownName (name : String)
  | keyNotFixed
  | nestedTooDeep
  | shapeMismatch
  | missingAxis
  | notSingle
  -- clustering and its evaluation
  | distancesNotSquare (shape : List Nat)
  | clusteringParameters
  | unusableDistances
  | unusableLabels
  | incomparableLabels
  | negativeCounts
  | countsNotAddressable
  | countsNotAffordable
  -- files and reports
  | featureFileMissing (path : String)
  | featureRank (shape : List Nat)
  | labelCount (labels rows : Nat)
  | nameCount (names rows : Nat)
  | namesNotListed
  | malformedFile (path : String)
  | unexpectedColumn (name : String)
  | noSuchFile (path : String)
  | notDirectory (path : String)
  | isDirectory (path : String)
  | fileExists (path : String)
  | nameTooLong (path : String)
  | tooDeep (path : String)
  -- command line and runs
  | labelsRequired
  | noUsableRadius (given : List α)
  | minimumNotPositive (got : Int)
  | radiusRequired
  | homeUnknown
  deriving Repr

/-- The result of an operation that may be refused. -/
abbrev Checked (α : Type) (β : Type) := Except (Fault α) β

namespace Fault

variable {α : Type} [Numeral α]

def centerNames : List String := ["centroid", "anchor"]

def message : Fault α → String
  | thresholdOutside got => s!"variance_threshold must be in (0, 1], got {Numeral.exact got}"
  | strongWeightNotPositive got => s!"strong_weight must be positive, got {Numeral.exact got}"
  | weightsReversed weak strong =>
    s!"weak_weight ({Numeral.exact weak}) must not be smaller than strong_weight " ++
      s!"({Numeral.exact strong})"
  | unknownCenter name =>
    s!"center must be one of {Text.listed (centerNames.map Text.quoted)}, got '" ++ name ++ "'"
  | negativeTolerance got => s!"eigen_tolerance must be non-negative, got {Numeral.exact got}"
  | emptyNeighborhood => "Neighborhood is empty"
  | neighborhoodRank shape =>
    s!"Neighborhood must be a 2-D array, got shape={Text.shapeText shape}"
  | anchorMismatch anchor neighborhood =>
    s!"Anchor dimensionality ({anchor}) does not match neighborhood ({neighborhood})"
  | neighborhoodNotFinite => "Neighborhood or anchor contains NaN or infinite values"
  | noEigenvalues => "No eigenvalues to select a correlation dimension from"
  | weightMatrixNotSquare shape =>
    s!"weight_matrix must be square, got shape={Text.shapeText shape}"
  | weightMatrixAsymmetric => "weight_matrix must be symmetric"
  | weightMatrixIndefinite => "weight_matrix must be positive-semidefinite"
  | dimensionOutside limit got => s!"correlation_dimension must be in [1, {limit}], got {got}"
  | vectorsRank shape => s!"vectors must be a 2-D array, got shape={Text.shapeText shape}"
  | vectorsEmpty shape => s!"vectors must be non-empty, got shape={Text.shapeText shape}"
  | vectorsNotFinite => "vectors contain NaN or infinite values"
  | idCount ids rows => s!"ids length ({ids}) does not match vector rows ({rows})"
  | idsNotUnique => "ids must be unique"
  | unknownPoint id => s!"Unknown point id {id}"
  | missingAssociation kind id => "No '" ++ kind ++ s!"' association stored for point {id}"
  | noWeightMatrix id => s!"The value stored for point {id} has no weight matrix"
  | unknownState name => s!"Unknown state {Text.quoted name}"
  | neighborCountNotPositive k => "k must be positive, got " ++ k.toJson.display
  | neighborCountNotWhole => "The number of neighbors has to be an integer"
  | negativeRadius radius => s!"epsilon must be non-negative, got {Numeral.exact radius}"
  | noWorkers => "n_jobs must be non-zero"
  | unknownPreprocessor name registered =>
    "Unknown preprocessor '" ++ name ++ "'. Registered: " ++
      Text.listed (registered.map Text.quoted)
  | wrongParameters => "The parameters do not fit the preprocessor"
  | missingFactory name => s!"No preprocessor is registered under {Text.quoted name}"
  | noNeighborCount => "The neighborhood has no fixed number of neighbors"
  | unbound => "Distance function is not bound to a database; call bind() first"
  | negativeIncrement n => s!"Counter increments must be non-negative, got {n}"
  | noSuchObject handle => s!"No object has the handle {handle}"
  | notNumber => "The value does not stand for a number"
  | numberTooLarge => "The number is too large for its type"
  | unknownName name => s!"Unknown name {Text.quoted name}"
  | keyNotFixed => "A key holds a value that may change"
  | nestedTooDeep => "Too many values are inside each other"
  | shapeMismatch => "The shapes of the arrays do not fit together"
  | missingAxis => "The array has too few axes"
  | notSingle => "The array holds more than a single value"
  | distancesNotSquare shape =>
    s!"distances must be a square matrix, got shape={Text.shapeText shape}"
  | clusteringParameters => "The radius must be finite and positive and the minimum at least one"
  | unusableDistances => "Distances must be finite and non-negative, one row per point"
  | unusableLabels => "Labels must form one row of classes, one per point"
  | incomparableLabels => "The labels have no common order"
  | negativeCounts => "Only non-negative numbers can be counted"
  | countsNotAddressable => "So many counts cannot be addressed"
  | countsNotAffordable => "There is no room for so many counts"
  | featureFileMissing path => "Feature file not found: " ++ path
  | featureRank shape => s!"Feature matrix must be 2-D, got shape={Text.shapeText shape}"
  | labelCount labels rows => s!"labels length ({labels}) does not match feature rows ({rows})"
  | nameCount names rows => s!"point_names length ({names}) does not match feature rows ({rows})"
  | namesNotListed => "The point names do not form a list"
  | malformedFile path => "Not readable: " ++ path
  | unexpectedColumn name => s!"The first row has no column {Text.quoted name}"
  | noSuchFile path => "No such file or directory: " ++ path
  | notDirectory path => "Not a directory: " ++ path
  | isDirectory path => "Is a directory: " ++ path
  | fileExists path => "File exists: " ++ path
  | nameTooLong path => "File name too long: " ++ path
  | tooDeep path => "Too many directories are missing: " ++ path
  | labelsRequired => "--use-offline-label-metrics requested but no labels were available"
  | noUsableRadius given => s!"No valid eps values in {Text.listed (given.map Numeral.exact)}"
  | minimumNotPositive got => s!"min_samples must be >=1, got {got}"
  | radiusRequired => "--epsilon is required for the 'range' preprocessor"
  | homeUnknown => "Could not determine the home directory"

end Fault

end LocalMetric
