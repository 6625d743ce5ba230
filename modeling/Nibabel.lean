import Nibabel.Numpy.DType
import Nibabel.Numpy.Scalar
import Nibabel.Numpy.Rounding
import Nibabel.ArrayWriters.Basic
import Nibabel.ArrayWriters.ScalingNeeded
import Nibabel.ArrayWriters.Slope
import Nibabel.ArrayWriters.SlopeInter
import Nibabel.ArrayWriters.Factory
import Nibabel.ArrayWriters.Affine
import Nibabel.ArrayWriters.Exact
import Nibabel.ArrayWriters.RangeLaw
import Nibabel.ArrayWriters.Recompute
import Nibabel.ArrayWriters.FixedWidth
import Nibabel.ArrayWriters.Simulation
import Nibabel.ArrayWriters.Rounded
import Nibabel.OneTime
import Nibabel.OneTime.Dependent
import Nibabel.OneTime.Fresh
