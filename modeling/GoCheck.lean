import GoCheck.Proofs.Constants.DecimalLiterals
import GoCheck.Proofs.Constants.Equality
import GoCheck.Proofs.Constants.Indices
import GoCheck.Proofs.Constants.Literals
import GoCheck.Proofs.Errors.Sessions
import GoCheck.Proofs.Parentheses.Pairs
import GoCheck.Proofs.Permanence
import GoCheck.Proofs.Positions
import GoCheck.Proofs.Printing.Agreement
import GoCheck.Proofs.Silence
import GoCheck.Proofs.Termination
import GoCheck.Proofs.Undeclared
import GoCheck.Proofs.Usage.Initialization
import GoCheck.Proofs.Visibility.Specifications
